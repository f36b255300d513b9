import PixsBliss.Lib.Pages
import PixsBliss.Providers.FeedFlight
import PixsBliss.Services.CacheWriters

/-! # The pages a feed shows

Let the API be a function of the page. When no fetch is in flight a feed should show exactly the
photos of the pages before `currentPage`, each once (`Shows`). A fetch that replaces the list sets
the page to 2 and one that extends it goes to the next page, so every answer keeps this. A cache
start also sets the page to 2, whatever the cached copy holds, and relies on its background fetch to
replace the list.

* `law_iff_startedOnPageOne`: so the law holds along a run exactly when every background fetch that
  fails was started on a cached copy of page 1.
* `shows_of_write`: the copy that a write of page 1 leaves is such a copy.
* `second_session_violates`: the copy that two loaded pages leave is not. -/

namespace PixsBliss.Providers.FeedPages

open PixsBliss.Lib.Async PixsBliss.Lib.Flight PixsBliss.Lib.Pages PixsBliss.Lib.Store
open PixsBliss.Models PixsBliss.Models.Json
open PixsBliss.Services.Cache PixsBliss.Services.PexelsApiService
open PixsBliss.Services.CacheWriters (Cacheable fromCache readCopy_perm_of_agree)
open PixsBliss.Providers.PexelsFeed PixsBliss.Providers.FeedFlight

/-- **The list consists of exactly the photos of the pages before `page`, each once.** -/
def Shows (api : ℕ → List Wallpaper) (ws : List Wallpaper) (page : ℕ) : Prop :=
  1 ≤ page ∧ (ws.map Wallpaper.id).Perm ((pages api (page - 1)).map Wallpaper.id)

/-- The law of the shown state: it holds whenever no fetch is in flight. -/
def Law (api : ℕ → List Wallpaper) (w : FWorld) : Prop :=
  fetches w = [] → Shows api w.shared.state.wallpapers w.shared.state.currentPage

/-- A successful answer is the page that was asked for. -/
def AnswersFrom (api : ℕ → List Wallpaper) : Task → Outcome → State → Prop
  | .fetching f, .answered (.wallpapers ws), _ => ws = api f.page
  | _, _, _ => True

/-- **A background fetch that fails was started on a cached copy of page 1.** -/
def StartedOnPageOne (api : ℕ → List Wallpaper) : Task → Outcome → State → Prop
  | .fetching f, .answered (.exception _), _ => f.awaited = false → Shows api f.base 2
  | _, _, _ => True

section Pages

variable {api : ℕ → List Wallpaper} {kind : FeedKind} {c : Codec} {w w' : FWorld} {e : FEvent}

theorem shows_nil : Shows api [] 1 := ⟨le_rfl, List.Perm.refl _⟩

theorem shows_first : Shows api (api 1) 2 := by
  refine ⟨by omega, ?_⟩
  rw [show 2 - 1 = 1 from rfl, pages_one]

theorem shows_append {ws : List Wallpaper} {page : ℕ} (h : Shows api ws page) :
    Shows api (ws ++ api page) (page + 1) := by
  obtain ⟨h1, hp⟩ := h
  refine ⟨by omega, ?_⟩
  rw [Nat.add_sub_cancel, ← pages_pred_append h1, List.map_append, List.map_append]
  exact hp.append_right _

theorem keeps_of (h : (guard (Shows api)).Single w) (ha : Meets (AnswersFrom api) w e w')
    (hc : Meets (StartedOnPageOne api) w e w') : Meets (Keeps (Shows api)) w e w' := by
  intro i o t he hi
  have ha := ha i o t he hi
  have hc := hc i o t he hi
  unfold Keeps
  split
  · next f ws =>
    obtain ⟨-, hpage, -, -⟩ := h.fits (List.mem_of_getElem? hi) rfl
    obtain rfl : ws = api f.page := ha
    rw [hpage]
    split_ifs
    · exact shows_first
    · exact shows_append
  · next f text =>
    intro hback
    obtain ⟨hbase, -, -, hpage⟩ := h.fits (List.mem_of_getElem? hi) rfl
    rw [(hpage hback).2, ← hbase]
    exact hc hback
  · trivial

/-- Without a fetch in flight the flag is down, and conversely. -/
theorem fetches_eq_nil_iff {L : List Wallpaper → ℕ → Prop} (h : (guard L).Single w) :
    fetches w = [] ↔ w.shared.state.isLoading = false := by
  have hb : w.shared.state.isLoading = true ↔ (fetches w).length = 1 := h.busy_iff
  have hlen : (fetches w).length ≤ 1 := h.length_le
  rw [← Bool.not_eq_true, hb, ← List.length_eq_zero_iff]
  omega

theorem law_of_single (h : (guard (Shows api)).Single w) : Law api w := fun hn =>
  h.idle ((fetches_eq_nil_iff h).mp hn)

/-- The law after the failure of a background fetch finds page 1. -/
theorem startedOnPageOne_of_law (h : (guard (Shows api)).Single w)
    (hs : (program kind c).step w e = some w') (hl : Law api w') :
    Meets (StartedOnPageOne api) w e w' := by
  have h0 : (guard fun _ _ => True).Single w := single_mono (fun _ _ _ => trivial) h
  have h0' : (guard fun _ _ => True).Single w' :=
    single_step_of_law h0 (fun _ o t _ _ => keeps_true t o _) hs
  rintro i o t rfl hi
  unfold StartedOnPageOne
  split
  · next f text =>
    intro hback
    obtain ⟨l, r, s, ts, ht, hr, rfl⟩ := Program.step_resume_at hi hs
    obtain ⟨hbase, -, -, hpage⟩ := h.fits (t := .fetching f) (by simp [ht]) rfl
    obtain rfl := congrArg Prod.fst (Option.some.inj hr)
    have hshows : Shows api w.shared.state.wallpapers w.shared.state.currentPage :=
      hl ((fetches_eq_nil_iff h0').mpr rfl)
    rw [(hpage hback).2, ← hbase] at hshows
    exact hshows
  · trivial

/-- **Exactly the runs along which the feed shows its pages**: the API being a function of the page,
the list is the pages before `currentPage` in every state without a fetch in flight iff every
background fetch that fails was started on a cached copy of page 1. -/
theorem law_iff_startedOnPageOne (kind : FeedKind) (c : Codec) (api : ℕ → List Wallpaper)
    (cache : CacheService) (es : List FEvent)
    (hapi : (program kind c).Each (Meets (AnswersFrom api)) (fresh cache) es) :
    (program kind c).Each (fun _ _ w' => Law api w') (fresh cache) es ↔
      (program kind c).Each (Meets (StartedOnPageOne api)) (fresh cache) es := by
  have hstart : (guard (Shows api)).Single (fresh cache) := single_fresh shows_nil
  refine Program.each_iff_each_of (fun w e w' h ha hs => ?_) hstart hapi
  have hsingle : Meets (StartedOnPageOne api) w e w' → (guard (Shows api)).Single w' :=
    fun hpage => single_step_of_law h (keeps_of h ha hpage) hs
  exact ⟨⟨startedOnPageOne_of_law h hs, fun hpage => law_of_single (hsingle hpage)⟩,
    fun hlaw => hsingle (startedOnPageOne_of_law h hs hlaw)⟩

end Pages

/-! ### Cached copies -/

/-- A completed write of page 1, with nothing written since, is a copy of page 1. -/
theorem shows_of_write {api : ℕ → List Wallpaper} {c : Codec} (h : Cacheable c (api 1))
    (copy : WallpaperCopy) (now : DateTime) {s : CacheService} {b : Box}
    (hb : copy.box s = some b) :
    Shows api (copy.getCached c (copy.cacheList c now (api 1) s)) 2 := by
  have hp : (copy.getCached c (copy.cacheList c now (api 1) s)).Perm ((api 1).map fromCache) := by
    rw [copy.getCached_eq, copy.cacheList_eq, copy.box_withBox, hb]
    exact readCopy_perm_of_agree h now b fun _ _ => rfl
  obtain ⟨h2, hfirst⟩ : Shows api (api 1) 2 := shows_first
  refine ⟨h2, (hp.map Wallpaper.id).trans ?_⟩
  rw [List.map_map]
  exact hfirst

/-- Two photos, one on each of the first two pages. -/
def twoPages : ℕ → List Wallpaper
  | 1 => [sampleWallpaper "a" "pexels"]
  | 2 => [sampleWallpaper "b" "pexels"]
  | _ => []

/-- The Pexels feed, with a codec for the photos of `twoPages`. -/
abbrev sampleFeed : Program State Task Call Outcome :=
  program pexelsWallpapersNotifier (sampleCodec ["a", "b"])

/-- A session that loads the first two pages; both are cached. -/
def firstSession : List FEvent :=
  [.call (.loadWallpapers false ⟨0, true⟩), .resume 0 (.answered (.wallpapers (twoPages 1))),
    .resume 0 (.done ⟨0, true⟩), .resume 0 (.done ⟨0, true⟩), .resume 0 (.done ⟨0, true⟩),
    .resume 0 (.done ⟨0, true⟩),
    .call (.loadWallpapers false ⟨0, true⟩), .resume 0 (.answered (.wallpapers (twoPages 2))),
    .resume 0 (.done ⟨0, true⟩), .resume 0 (.done ⟨0, true⟩), .resume 0 (.done ⟨0, true⟩),
    .resume 0 (.done ⟨0, true⟩), .resume 0 (.done ⟨0, true⟩)]

/-- A session that starts from the cache and whose background fetch fails. -/
def secondSession : List FEvent :=
  [.call (.loadWallpapers false ⟨0, true⟩), .resume 0 (.answered (.exception "Exception: Network"))]

theorem firstSession_answers : sampleFeed.Each (Meets (AnswersFrom twoPages))
    (fresh (.opened .empty .empty .empty .empty)) firstSession := by
  refine (Program.each_cons rfl).mpr ⟨meets_call, ?_⟩
  refine (Program.each_cons rfl).mpr ⟨meets_of_task rfl rfl, ?_⟩
  refine (Program.each_cons rfl).mpr ⟨meets_of_task rfl trivial, ?_⟩
  refine (Program.each_cons rfl).mpr ⟨meets_of_task rfl trivial, ?_⟩
  refine (Program.each_cons rfl).mpr ⟨meets_of_task rfl trivial, ?_⟩
  refine (Program.each_cons rfl).mpr ⟨meets_of_task rfl trivial, ?_⟩
  refine (Program.each_cons rfl).mpr ⟨meets_call, ?_⟩
  refine (Program.each_cons rfl).mpr ⟨meets_of_task rfl rfl, ?_⟩
  refine (Program.each_cons rfl).mpr ⟨meets_of_task rfl trivial, ?_⟩
  refine (Program.each_cons rfl).mpr ⟨meets_of_task rfl trivial, ?_⟩
  refine (Program.each_cons rfl).mpr ⟨meets_of_task rfl trivial, ?_⟩
  refine (Program.each_cons rfl).mpr ⟨meets_of_task rfl trivial, ?_⟩
  refine (Program.each_cons rfl).mpr ⟨meets_of_task rfl trivial, ?_⟩
  trivial

theorem firstSession_law :
    sampleFeed.Each (fun _ _ w' => Law twoPages w') (fresh (.opened .empty .empty .empty .empty))
        firstSession ↔
      sampleFeed.Each (Meets (StartedOnPageOne twoPages))
        (fresh (.opened .empty .empty .empty .empty)) firstSession :=
  law_iff_startedOnPageOne pexelsWallpapersNotifier (sampleCodec ["a", "b"]) twoPages
    (.opened .empty .empty .empty .empty) firstSession firstSession_answers

set_option maxRecDepth 20000 in
/-- **A session on the cache of two pages**: the cached copy is shown as page 1, the background
fetch fails, and two photos stay shown with page 2 as the next. -/
theorem second_session_violates :
    sampleFeed.Each (Meets (AnswersFrom twoPages)) (fresh (.opened .empty .empty .empty .empty))
      firstSession ∧
    ∃ w w', sampleFeed.run (fresh (.opened .empty .empty .empty .empty)) firstSession = some w ∧
      w.tasks = [] ∧ sampleFeed.run (fresh w.shared.cache) secondSession = some w' ∧
      ¬ Law twoPages w' := by
  refine ⟨firstSession_answers, _, _, rfl, rfl, rfl, fun h => ?_⟩
  have hlen := (h rfl).2.length_eq
  revert hlen
  decide

end PixsBliss.Providers.FeedPages
