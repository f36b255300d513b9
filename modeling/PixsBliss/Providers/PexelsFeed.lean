import PixsBliss.Lib.Async
import PixsBliss.Services.Cache
import PixsBliss.Services.PexelsApiService

/-! # The cached Pexels feeds

`PexelsWallpapersNotifier` and `PexelsTrendingWallpapersNotifier` have one shape: a guarded load
that first tries the cached copy, a fetch of one page that replaces or extends the list and writes
the copy, a refresh that clears the copy, and a load of the next page. They differ in the copy, the
request, the number of photos of a page and the text of an error; `FeedKind` holds these, and the
two notifiers are the program at their own values.

A fetch, every Hive operation of a cache write, the clear of a refresh and the code after an awaited
fetch are tasks of their own. A cache operation that fails is swallowed by the cache service, so
neither the catch of the fetch nor the callers see it. -/

namespace PixsBliss.Providers.PexelsFeed

open PixsBliss.Lib.Async PixsBliss.Models PixsBliss.Models.Json
open PixsBliss.Services.Cache PixsBliss.Services.PexelsApiService

/-- What the two feeds differ in. -/
structure FeedKind where
  copy : WallpaperCopy
  perPage : ℕ
  request : ℕ → ℕ → Request
  errorText : String → String

def pexelsWallpapersNotifier : FeedKind where
  copy := .pexelsWallpapers
  perPage := 80
  request := getCuratedWallpapers
  errorText _ :=
    "Network connection failed. Please check your internet connection and try again."

def pexelsTrendingWallpapersNotifier : FeedKind where
  copy := .pexelsTrendingWallpapers
  perPage := 20
  request := getPopularWallpapers
  errorText text := text

/-- The state that is shown. A `copyWith` keeps the fields it is not given, but for `error`, which
it resets. -/
structure PexelsWallpapersState where
  wallpapers : List Wallpaper := []
  isLoading : Bool := false
  hasMore : Bool := true
  error : Option String := none
  currentPage : ℕ := 1

structure State where
  state : PexelsWallpapersState
  hasLoadedFromCache : Bool
  cache : CacheService

/-- A fetch in flight: its page and request, whether it refreshes, whether a load awaits it (the
background fetch of a cache start is not awaited), and, as a ghost, the list it was sent from. -/
structure Fetch where
  page : ℕ
  request : Request
  refresh : Bool
  awaited : Bool
  base : List Wallpaper

/-- What is awaited: a fetch, the next Hive operation of the cache write after it, the clear of a
refresh, the return to the load that awaits a fetch. -/
inductive Task
  | fetching (f : Fetch)
  | caching (rest : List BoxOp) (awaited : Bool)
  | clearing
  | returning

inductive Call
  | loadWallpapers (refresh : Bool) (now : DateTime)
  | refresh
  | loadMore (now : DateTime)

/-- A fetch is answered; a Hive operation or a return completes, or a Hive operation fails. -/
inductive Outcome
  | answered (a : Answer)
  | done (now : DateTime)
  | failed

def finish (awaited : Bool) : List Task := if awaited then [.returning] else []

/-- A cache write goes on with its remaining operations. -/
def writeCache (awaited : Bool) : List BoxOp → List Task
  | [] => finish awaited
  | rest => [.caching rest awaited]

/-- A new `const PexelsWallpapersState()` over the boxes of a device. -/
def fresh (cache : CacheService) : World State Task := ⟨⟨{}, false, cache⟩, []⟩

section Feed

variable (kind : FeedKind) (c : Codec)

/-- `_fetchAndUpdateWallpapers`, up to the answer. -/
def fetchAndUpdateWallpapers (refresh awaited : Bool) (s : State) : State × List Task :=
  let page := if refresh then 1 else s.state.currentPage
  ({ s with state := { s.state with isLoading := true, error := none } },
    [.fetching ⟨page, kind.request page kind.perPage, refresh, awaited, s.state.wallpapers⟩])

/-- `loadWallpapers`, up to its fetch. -/
def loadWallpapers (refresh : Bool) (now : DateTime) (s : State) : State × List Task :=
  if s.state.isLoading then (s, [])
  else if !s.hasLoadedFromCache && !refresh && !(kind.copy.getCached c s.cache).isEmpty &&
      !kind.copy.isStale c now s.cache then
    fetchAndUpdateWallpapers kind true false
      { s with
        state := { s.state with
          wallpapers := kind.copy.getCached c s.cache
          isLoading := false
          error := none
          currentPage := 2 }
        hasLoadedFromCache := true }
  else fetchAndUpdateWallpapers kind refresh true s

/-- The list after a page: the page itself, or the list and the page. -/
def updated (refresh : Bool) (s : State) (ws : List Wallpaper) : List Wallpaper :=
  if refresh then ws else s.state.wallpapers ++ ws

/-- `_fetchAndUpdateWallpapers` from a successful answer to the end of its synchronous part. -/
def applyPage (f : Fetch) (ws : List Wallpaper) (s : State) : State × List Task :=
  ({ s with
    state := { s.state with
      wallpapers := updated f.refresh s ws
      isLoading := false
      error := none
      currentPage := if f.refresh then 2 else s.state.currentPage + 1
      hasMore := !ws.isEmpty && decide (kind.perPage ≤ ws.length) } },
    match kind.copy.box s.cache with
    | none => finish f.awaited
    | some _ => writeCache f.awaited (writeOps wallpaperKind c (updated f.refresh s ws)))

/-- The catch of `_fetchAndUpdateWallpapers`. -/
def applyError (f : Fetch) (text : String) (s : State) : State × List Task :=
  ({ s with state := { s.state with isLoading := false, error := some (kind.errorText text) } },
    finish f.awaited)

/-- `refresh()` after its clear; its load does not read the cached copy, so the time is unused. -/
def refreshAfterClear (s : State) : State × List Task :=
  loadWallpapers kind c true ⟨0, true⟩ { s with hasLoadedFromCache := false }

def storeOp (op : BoxOp) (now : DateTime) (s : State) : State :=
  { s with cache := kind.copy.withBox ((kind.copy.box s.cache).map (op.apply c now)) s.cache }

/-- **The notifier.** -/
def program : Program State Task Call Outcome where
  call
    | .loadWallpapers refresh now, s => loadWallpapers kind c refresh now s
    | .refresh, s => (s, [.clearing])
    | .loadMore now, s =>
      if s.state.hasMore && !s.state.isLoading then loadWallpapers kind c false now s else (s, [])
  resume
    | .fetching f, .answered (.wallpapers ws), s => some (applyPage kind c f ws s)
    | .fetching f, .answered (.exception text), s => some (applyError kind f text s)
    | .caching (op :: rest) awaited, .done now, s =>
      some (storeOp kind c op now s, writeCache awaited rest)
    | .caching (_ :: _) awaited, .failed, s => some (s, finish awaited)
    | .clearing, .done now, s => some (refreshAfterClear kind c (storeOp kind c .clear now s))
    | .clearing, .failed, s => some (refreshAfterClear kind c s)
    | .returning, .done _, s => some ({ s with hasLoadedFromCache := true }, [])
    | _, _, _ => none

end Feed

end PixsBliss.Providers.PexelsFeed
