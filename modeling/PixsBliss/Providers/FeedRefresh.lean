import PixsBliss.Providers.FeedLoadMore

/-! # A refresh that brings nothing

`refresh` clears the cached copy before it asks for page 1. If the fetch fails, or the load is
refused because a fetch is in flight and this one fails, the list stays as it is, but the copy is
gone.

* `step_nothing`: what a step that brings nothing can do: it keeps what is shown, and the copy with
  it unless a clear completes.
* `refresh_keeps_iff`: so a refresh that brings nothing keeps the copy iff there is none, or the
  clear fails. -/

namespace PixsBliss.Providers.FeedRefresh

open PixsBliss.Lib.Async PixsBliss.Lib.Store PixsBliss.Models PixsBliss.Models.Json
open PixsBliss.Services.Cache PixsBliss.Services.PexelsApiService
open PixsBliss.Providers.PexelsFeed PixsBliss.Providers.FeedFlight PixsBliss.Providers.FeedLoadMore

/-- What the user has without a network: what is shown, and the box of the copy with its stamp. -/
structure Offline where
  wallpapers : List Wallpaper
  currentPage : ℕ
  hasMore : Bool
  box : Option Box

def offline (kind : FeedKind) (s : State) : Offline :=
  ⟨s.state.wallpapers, s.state.currentPage, s.state.hasMore, kind.copy.box s.cache⟩

/-- With the copy cleared. -/
def Offline.cleared (o : Offline) : Offline := { o with box := clearCopy o.box }

theorem Offline.cleared_cleared (o : Offline) : o.cleared.cleared = o.cleared := by
  simp [Offline.cleared, clearCopy, Function.comp_def]

/-! ### Steps that bring nothing -/

/-- No fetch is answered with a page, and no operation of a cache write completes. -/
def NothingNew : Task → Outcome → Prop
  | .fetching _, .answered (.wallpapers _) => False
  | .caching _ _, .done _ => False
  | _, _ => True

/-- A load that is refused, or does not start from the cached copy. -/
def NoCacheStart (kind : FeedKind) (c : Codec) (now : DateTime) (s : State) : Prop :=
  s.state.isLoading = true ∨ ¬StartsFromCache kind c now s

/-- A call does not bring the cached copy. -/
def NothingCalled (kind : FeedKind) (c : Codec) (s : State) : Call → Prop
  | .loadWallpapers refresh now => refresh = false → NoCacheStart kind c now s
  | .refresh => True
  | .loadMore now => NoCacheStart kind c now s

/-- **A step that brings nothing.** -/
def BringsNothing (kind : FeedKind) (c : Codec) (w : FWorld) (e : FEvent) (_w' : FWorld) : Prop :=
  (∀ k, e = .call k → NothingCalled kind c w.shared k) ∧
    ∀ i o t, e = .resume i o → w.tasks[i]? = some t → NothingNew t o

/-- A clear that ends in this step fails. -/
def ClearFails (w : FWorld) (e : FEvent) (_w' : FWorld) : Prop :=
  ∀ i now, e = .resume i (.done now) → w.tasks[i]? ≠ some .clearing

section Steps

variable {kind : FeedKind} {c : Codec} {s s' : State} {w w' : FWorld} {e : FEvent}

theorem offline_fetch (refresh awaited : Bool) (s : State) :
    offline kind (fetchAndUpdateWallpapers kind refresh awaited s).1 = offline kind s := rfl

theorem offline_load (refresh : Bool) (now : DateTime)
    (h : refresh = false → NoCacheStart kind c now s) :
    offline kind (loadWallpapers kind c refresh now s).1 = offline kind s := by
  unfold loadWallpapers
  split_ifs with hload hcache
  · rfl
  · -- the load would start from the copy
    simp only [Bool.and_eq_true, Bool.not_eq_true', List.isEmpty_eq_false_iff] at hcache
    obtain ⟨⟨⟨hflag, hrefresh⟩, hcached⟩, hstale⟩ := hcache
    rcases h hrefresh with hbusy | hno
    · exact absurd hbusy hload
    · exact absurd ⟨hflag, hcached, hstale⟩ hno
  · exact offline_fetch refresh true s

theorem offline_refreshAfterClear (s : State) :
    offline kind (refreshAfterClear kind c s).1 = offline kind s :=
  offline_load (s := { s with hasLoadedFromCache := false }) true ⟨0, true⟩ fun h => by cases h

theorem offline_call (k : Call) (h : NothingCalled kind c s k) :
    offline kind ((program kind c).call k s).1 = offline kind s := by
  cases k with
  | loadWallpapers refresh now => exact offline_load refresh now h
  | refresh => rfl
  | loadMore now =>
    simp only [program]
    split_ifs
    · exact offline_load false now fun _ => h
    · rfl

/-- The clear of a refresh. -/
theorem offline_clear (now : DateTime) (s : State) :
    offline kind (storeOp kind c .clear now s) = (offline kind s).cleared := by
  simp only [offline, storeOp, WallpaperCopy.box_withBox]
  rfl

theorem offline_resume {t : Task} {o : Outcome} {ts : List Task} (h : NothingNew t o)
    (hr : (program kind c).resume t o s = some (s', ts)) :
    (∃ now, t = .clearing ∧ o = .done now ∧ offline kind s' = (offline kind s).cleared) ∨
      (∀ now, o = .done now → t ≠ .clearing) ∧ offline kind s' = offline kind s := by
  cases t with
  | fetching f =>
    refine Or.inr ⟨fun now _ ht => (by cases ht), ?_⟩
    cases o with
    | done now => simp [program] at hr
    | failed => simp [program] at hr
    | answered a =>
      cases a with
      | wallpapers ws => exact absurd h not_false
      | exception text =>
        obtain rfl := congrArg Prod.fst (Option.some.inj hr)
        rfl
  | caching rest awaited =>
    refine Or.inr ⟨fun now _ ht => (by cases ht), ?_⟩
    cases rest with
    | nil => cases o <;> simp [program] at hr
    | cons op rest =>
      cases o with
      | answered a => simp [program] at hr
      | done now => exact absurd h not_false
      | failed =>
        obtain rfl := congrArg Prod.fst (Option.some.inj hr)
        rfl
  | clearing =>
    cases o with
    | answered a => simp [program] at hr
    | done now =>
      obtain rfl := congrArg Prod.fst (Option.some.inj hr)
      refine Or.inl ⟨now, rfl, rfl, ?_⟩
      rw [offline_refreshAfterClear, offline_clear]
    | failed =>
      obtain rfl := congrArg Prod.fst (Option.some.inj hr)
      exact Or.inr ⟨fun now ho => (by cases ho), offline_refreshAfterClear s⟩
  | returning =>
    refine Or.inr ⟨fun now _ ht => (by cases ht), ?_⟩
    cases o with
    | answered a => simp [program] at hr
    | done now =>
      obtain rfl := congrArg Prod.fst (Option.some.inj hr)
      rfl
    | failed => simp [program] at hr

/-- **What a step that brings nothing can do.** -/
theorem step_nothing (h : BringsNothing kind c w e w') (hs : (program kind c).step w e = some w') :
    (¬ClearFails w e w' ∧ offline kind w'.shared = (offline kind w.shared).cleared) ∨
      (ClearFails w e w' ∧ offline kind w'.shared = offline kind w.shared) := by
  rcases Program.step_cases hs with ⟨k, rfl, rfl⟩ | ⟨l, t, r, o, s, ts, rfl, ht, hr, rfl⟩
  · exact Or.inr ⟨fun i now he => (by cases he), offline_call k (h.1 k rfl)⟩
  · have hi : w.tasks[l.length]? = some t := Program.getElem?_of_eq ht
    rcases offline_resume (h.2 l.length o t rfl hi) hr with ⟨now, rfl, rfl, hcleared⟩ | ⟨hno, hkept⟩
    · exact Or.inl ⟨fun hf => hf l.length now rfl hi, hcleared⟩
    · refine Or.inr ⟨fun i now he hclear => ?_, hkept⟩
      cases he
      exact hno now rfl (Option.some.inj (hi.symm.trans hclear))

end Steps

/-! ### Runs that bring nothing -/

section Runs

variable {kind : FeedKind} {c : Codec} {w w' : FWorld} {es : List FEvent}

/-- Along a run the copy is cleared once and for all, or no clear completes. -/
theorem run_nothing (h : (program kind c).Each (BringsNothing kind c) w es)
    (hr : (program kind c).run w es = some w') :
    (¬(program kind c).Each ClearFails w es ∧
        offline kind w'.shared = (offline kind w.shared).cleared) ∨
      ((program kind c).Each ClearFails w es ∧
        offline kind w'.shared = offline kind w.shared) := by
  induction es generalizing w with
  | nil =>
    obtain rfl := Option.some.inj hr
    exact Or.inr ⟨trivial, rfl⟩
  | cons e es ih =>
    obtain ⟨w₁, hs, hr⟩ := Program.run_cons_some.mp hr
    rw [Program.each_cons hs] at h ⊢
    rcases step_nothing h.1 hs with ⟨hno, hw₁⟩ | ⟨hf, hw₁⟩
    · refine Or.inl ⟨fun hall => hno hall.1, ?_⟩
      rcases ih h.2 hr with ⟨-, hw'⟩ | ⟨-, hw'⟩
      · rw [hw', hw₁, Offline.cleared_cleared]
      · rw [hw', hw₁]
    · rw [← hw₁]
      rcases ih h.2 hr with ⟨hno, hw'⟩ | ⟨hall, hw'⟩
      · exact Or.inl ⟨fun hall => hno hall.2, hw'⟩
      · exact Or.inr ⟨⟨hf, hall⟩, hw'⟩

/-- There is no copy to lose: its box is not open, or empty. -/
def NothingCached (kind : FeedKind) (s : State) : Prop :=
  kind.copy.box s.cache = none ∨ kind.copy.box s.cache = some SortedStore.empty

theorem cleared_eq_self_iff {s : State} :
    (offline kind s).cleared = offline kind s ↔ NothingCached kind s := by
  unfold Offline.cleared offline NothingCached clearCopy
  cases kind.copy.box s.cache with
  | none => simp
  | some b => simp [eq_comm]

/-- **Exactly the refreshes without a page that lose nothing.** From any state and any cached copy,
along any run of a refresh in which every fetch that ends fails, no operation of an earlier cache
write lands and no load starts from the copy, what is shown and the copy are kept iff there is no
copy, or every clear that ends has failed. -/
theorem refresh_keeps_iff (kind : FeedKind) (c : Codec) (w w' : FWorld) (es : List FEvent)
    (hnothing : (program kind c).Each (BringsNothing kind c) w (.call .refresh :: es))
    (hrun : (program kind c).run w (.call .refresh :: es) = some w') :
    offline kind w'.shared = offline kind w.shared ↔
      NothingCached kind w.shared ∨ (program kind c).Each ClearFails w (.call .refresh :: es) := by
  rcases run_nothing hnothing hrun with ⟨hno, hw'⟩ | ⟨hall, hw'⟩
  · rw [hw', cleared_eq_self_iff, or_iff_left hno]
  · exact iff_of_true hw' (Or.inr hall)

/-! ### A refresh without a network -/

theorem bringsNothing_refresh : BringsNothing kind c w (.call .refresh) w' := by
  refine ⟨fun k hk => ?_, fun i o t he _ => (by cases he)⟩
  obtain rfl := Event.call.inj hk
  trivial

theorem bringsNothing_resume {i : ℕ} {o : Outcome} {t : Task} (ht : w.tasks[i]? = some t)
    (h : NothingNew t o) : BringsNothing kind c w (.resume i o) w' := by
  refine ⟨fun k hk => (by cases hk), fun j o' t' he ht' => ?_⟩
  obtain ⟨rfl, rfl⟩ := Event.resume.inj he
  obtain rfl := Option.some.inj (ht.symm.trans ht')
  exact h

/-- A feed that shows the photo it has cached. -/
def onePhotoShown : FWorld where
  shared := ⟨{ wallpapers := [sampleWallpaper "a" "pexels"], currentPage := 2 }, true,
    (CacheService.opened .empty .empty .empty .empty).cachePexelsWallpapers (sampleCodec ["a"])
      ⟨0, true⟩ [sampleWallpaper "a" "pexels"]⟩
  tasks := []

/-- The clear ends with `cleared`, the fetch fails, and the refresh returns. -/
def failedRefresh (cleared : Outcome) : List FEvent :=
  [.call .refresh, .resume 0 cleared, .resume 0 (.answered (.exception "no network")),
    .resume 0 (.done ⟨0, true⟩)]

abbrev curatedFeed : Program State Task Call Outcome :=
  program pexelsWallpapersNotifier (sampleCodec ["a"])

theorem failedRefresh_nothing {cleared : Outcome}
    (h : cleared = .done ⟨0, true⟩ ∨ cleared = .failed) :
    curatedFeed.Each (BringsNothing pexelsWallpapersNotifier (sampleCodec ["a"])) onePhotoShown
      (failedRefresh cleared) := by
  rcases h with rfl | rfl
  all_goals
    refine (Program.each_cons rfl).mpr ⟨bringsNothing_refresh, ?_⟩
    refine (Program.each_cons rfl).mpr ⟨bringsNothing_resume rfl trivial, ?_⟩
    refine (Program.each_cons rfl).mpr ⟨bringsNothing_resume rfl trivial, ?_⟩
    exact (Program.each_cons rfl).mpr ⟨bringsNothing_resume rfl trivial, trivial⟩

/-- A refresh whose clear fails as well. -/
theorem failedRefresh_keeps_iff : ∃ w', curatedFeed.run onePhotoShown (failedRefresh .failed) =
      some w' ∧
    (offline pexelsWallpapersNotifier w'.shared =
        offline pexelsWallpapersNotifier onePhotoShown.shared ↔
      NothingCached pexelsWallpapersNotifier onePhotoShown.shared ∨
        curatedFeed.Each ClearFails onePhotoShown (failedRefresh .failed)) :=
  ⟨_, rfl, refresh_keeps_iff pexelsWallpapersNotifier (sampleCodec ["a"]) onePhotoShown _ _
    (failedRefresh_nothing (Or.inr rfl)) rfl⟩

set_option maxRecDepth 20000 in
/-- **A lost copy**: the fetch of the refresh fails, the photo is still shown, and the copy is
gone. -/
theorem copy_lost : ∃ w',
    curatedFeed.Each (BringsNothing pexelsWallpapersNotifier (sampleCodec ["a"])) onePhotoShown
      (failedRefresh (.done ⟨0, true⟩)) ∧
    curatedFeed.run onePhotoShown (failedRefresh (.done ⟨0, true⟩)) = some w' ∧ w'.tasks = [] ∧
    w'.shared.state.wallpapers = [sampleWallpaper "a" "pexels"] ∧
    pexelsWallpapersNotifier.copy.getCached (sampleCodec ["a"]) onePhotoShown.shared.cache =
      [sampleWallpaper "a" "pexels"] ∧
    pexelsWallpapersNotifier.copy.getCached (sampleCodec ["a"]) w'.shared.cache = [] ∧
    offline pexelsWallpapersNotifier w'.shared ≠
      offline pexelsWallpapersNotifier onePhotoShown.shared := by
  refine ⟨_, failedRefresh_nothing (Or.inl rfl), rfl, rfl, rfl, rfl, rfl, fun h => ?_⟩
  have hbox := congrArg (fun o => o.box.map fun b => b.entries.length) h
  revert hbox
  decide

end Runs

end PixsBliss.Providers.FeedRefresh
