import PixsBliss.Lib.Async
import PixsBliss.Services.Cache
import PixsBliss.Services.FirestoreService

/-! # The Firestore notifiers

`FirestoreWallpapersNotifier` shows a list of wallpapers as an `AsyncValue`. `loadWallpapers` shows
a fresh cached copy, else awaits the service and then the write of the cache; `refresh` always asks
the service; the other four calls ask the service and do not cache. There is no guard, so calls
overlap. `FirestoreCategoriesNotifier` shows the cached categories while it awaits the service.

A query and every Hive operation of a cache write are tasks. A Hive operation that fails is
swallowed by the cache service, so the notifier then goes on as if the write had completed. -/

namespace PixsBliss.Providers.FirestoreNotifier

open PixsBliss.Lib.Async PixsBliss.Models PixsBliss.Models.Json
open PixsBliss.Services PixsBliss.Services.Cache PixsBliss.Services.FirestoreService

/-- Riverpod's `AsyncValue`. -/
inductive AsyncValue (α : Type)
  | loading
  | data (value : α)
  | error (e : DartError)

/-- What is shown, and the cache service. -/
structure State (α : Type) where
  state : AsyncValue (List α)
  cache : CacheService

/-- A query is answered; a Hive operation completes, or fails. -/
inductive Outcome
  | answered (answer : Result Snapshot)
  | done (now : DateTime)
  | failed

/-- What a notifier awaits: the query of one of its calls, or the next Hive operation of the write
of a list that is shown after it. -/
inductive Task (κ α : Type)
  | querying (call : κ) (query : Query)
  | caching (rest : List BoxOp) (l : List α)

/-- The write goes on with its remaining operations; after the last one the list is shown. -/
def writeCache {κ α : Type} (l : List α) (s : State α) : List BoxOp → State α × List (Task κ α)
  | [] => ({ s with state := .data l }, [])
  | rest => (s, [.caching rest l])

/-! ### Wallpapers -/

section Wallpapers

variable (c : Codec) (fromFirestore : DynMap → Result Wallpaper)

inductive WallpapersCall
  | loadWallpapers (now : DateTime)
  | refresh
  | loadWallpapersByCategory (category : String)
  | searchWallpapers (query : String)
  | loadFeaturedWallpapers
  | loadTrendingWallpapers
deriving DecidableEq

abbrev WallpapersTask := Task WallpapersCall Wallpaper

/-- The query a call awaits. -/
def queryOf : WallpapersCall → Query
  | .loadWallpapers _ => getWallpapers
  | .refresh => getWallpapers
  | .loadWallpapersByCategory category => getWallpapersByCategory category 0
  | .searchWallpapers query => FirestoreService.searchWallpapers c query
  | .loadFeaturedWallpapers => getFeaturedWallpapers
  | .loadTrendingWallpapers => getTrendingWallpapers

/-- `loadWallpapers`, up to its query. -/
def loadWallpapers (now : DateTime) (s : State Wallpaper) : State Wallpaper × List WallpapersTask :=
  if !(s.cache.getCachedWallpapers c).isEmpty && !s.cache.isCacheStale c now then
    ({ s with state := .data (s.cache.getCachedWallpapers c) }, [])
  else ({ s with state := .loading }, [.querying (.loadWallpapers now) getWallpapers])

/-- `cacheWallpapers` and the update of the state after it. -/
def cacheAndShow (ws : List Wallpaper) (s : State Wallpaper) :
    State Wallpaper × List WallpapersTask :=
  match s.cache.wallpapersBox with
  | none => ({ s with state := .data ws }, [])
  | some _ => writeCache ws s (writeOps wallpaperKind c ws)

/-- The catch of `loadWallpapers`. -/
def showCachedOrError (e : DartError) (s : State Wallpaper) : State Wallpaper :=
  if !(s.cache.getCachedWallpapers c).isEmpty then
    { s with state := .data (s.cache.getCachedWallpapers c) }
  else { s with state := .error e }

/-- The list of a call that does not cache. -/
def showList (answer : Result (List Wallpaper)) (s : State Wallpaper) : State Wallpaper :=
  match answer with
  | .ok ws => { s with state := .data ws }
  | .error e => { s with state := .error e }

/-- A call goes on with the answer to its query. -/
def afterQuery (call : WallpapersCall) (answer : Result Snapshot) (s : State Wallpaper) :
    State Wallpaper × List WallpapersTask :=
  match call with
  | .loadWallpapers _ =>
    match getList fromFirestore answer with
    | .ok ws => cacheAndShow c ws s
    | .error e => (showCachedOrError c e s, [])
  | .refresh =>
    match getList fromFirestore answer with
    | .ok ws => cacheAndShow c ws s
    | .error e => ({ s with state := .error e }, [])
  | .loadWallpapersByCategory _ => (showList (getList fromFirestore answer) s, [])
  | .searchWallpapers _ => (showList (getList fromFirestore answer) s, [])
  | .loadFeaturedWallpapers => (showList (getList fromFirestore answer) s, [])
  | .loadTrendingWallpapers => (showList (getList fromFirestore answer) s, [])

/-- **`FirestoreWallpapersNotifier`.** -/
def wallpapersProgram : Program (State Wallpaper) WallpapersTask WallpapersCall Outcome where
  call
    | .loadWallpapers now, s => loadWallpapers c now s
    | call, s => ({ s with state := .loading }, [.querying call (queryOf c call)])
  resume
    | .querying call _, .answered answer, s => some (afterQuery c fromFirestore call answer s)
    | .caching (op :: rest) ws, .done now, s =>
      some (writeCache ws
        { s with cache :=
          { s.cache with wallpapersBox := s.cache.wallpapersBox.map (op.apply c now) } } rest)
    | .caching (_ :: _) ws, .failed, s => some ({ s with state := .data ws }, [])
    | _, _, _ => none

end Wallpapers

/-! ### Categories -/

section Categories

variable (c : Codec) (fromFirestore : DynMap → Result Category)

inductive CategoriesCall
  | loadCategories
  | refresh
deriving DecidableEq

abbrev CategoriesTask := Task CategoriesCall Category

/-- `loadCategories`, up to its query. -/
def loadCategories (s : State Category) : State Category × List CategoriesTask :=
  (if !(s.cache.getCachedCategories c).isEmpty then
      { s with state := .data (s.cache.getCachedCategories c) }
    else { s with state := .loading }, [.querying .loadCategories getCategories])

/-- `loadCategories` goes on with the answer to its query. -/
def afterCategoriesQuery (answer : Result Snapshot) (s : State Category) :
    State Category × List CategoriesTask :=
  match getList fromFirestore answer with
  | .ok cats =>
    match s.cache.categoriesBox with
    | none => ({ s with state := .data cats }, [])
    | some _ => writeCache cats s (writeOps categoryKind c cats)
  | .error e =>
    (if !(s.cache.getCachedCategories c).isEmpty then
        { s with state := .data (s.cache.getCachedCategories c) }
      else { s with state := .error e }, [])

/-- **`FirestoreCategoriesNotifier`.** -/
def categoriesProgram : Program (State Category) CategoriesTask CategoriesCall Outcome where
  call
    | .loadCategories, s => loadCategories c s
    | .refresh, s => loadCategories c s
  resume
    | .querying _ _, .answered answer, s => some (afterCategoriesQuery c fromFirestore answer s)
    | .caching (op :: rest) cats, .done now, s =>
      some (writeCache cats
        { s with cache :=
          { s.cache with categoriesBox := s.cache.categoriesBox.map (op.apply c now) } } rest)
    | .caching (_ :: _) cats, .failed, s => some ({ s with state := .data cats }, [])
    | _, _, _ => none

end Categories

end PixsBliss.Providers.FirestoreNotifier
