import PixsBliss.Lib.Memo
import PixsBliss.Lib.Parts
import PixsBliss.Models.FromFirestore
import PixsBliss.Pages.CategoriesTab
import PixsBliss.Providers.AsyncValues

/-! # The tiles of the categories

The tab lists the categories of Firestore and then those of Pexels. The image of a tile is a future
that is made when the tile is first built and kept under the id of its category: the image of the
day for one of Pexels, that of a first wallpaper for one of Firestore. The tab is kept alive, and
its tiles are built again and again, on later days too. A `FutureBuilder` on the screen hears of the
future of its tile, and waits until then, also where the future is completed already.

* `tab_settles`: nothing is shown as loading that does not load, the tab shows no error, and an item
  waits or shows what its tile has.
* `tile_kept`: an image is looked up once; the tile keeps it, of whatever day it is, and it is the
  one that the preferences have for that day. -/

namespace PixsBliss.Pages.CategoryTiles

open PixsBliss.Lib PixsBliss.Lib.Async PixsBliss.Lib.Calendar PixsBliss.Lib.Memo
open PixsBliss.Lib.Parts PixsBliss.Lib.Turns PixsBliss.Models PixsBliss.Models.Json
open PixsBliss.Services.Cache PixsBliss.Services.FirestoreService
open PixsBliss.Services.PexelsApiService (Answer getCategories)
open PixsBliss.Services.PremiumService PixsBliss.Pages.CategoriesTab
open PixsBliss.Providers PixsBliss.Providers.AsyncValues
open PixsBliss.Providers.FirestoreNotifier (CategoriesTask categoriesProgram loadCategories)

/-! ### Images -/

/-- A category of the list, and whether it is one of Firestore. -/
structure Listed where
  category : Category
  isFirebaseCategory : Bool
deriving DecidableEq

/-- A key of `_imageFutures`, or one of `_firebaseCategoryImageFutures`. -/
inductive Tile
  | pexels (categoryId : String)
  | firebase (categoryId : String)
deriving DecidableEq

def tileOf (x : Listed) : Tile :=
  if x.isFirebaseCategory then .firebase x.category.id else .pexels x.category.id

/-- The value of a future; as a ghost the day that the image was looked up for. -/
structure Image where
  url : Option String
  day : Option Date

/-- What an image waits for: an await of `_getDailyCategoryImage`, with the day once the clock is
read, or the query of `_getFirebaseCategoryWallpaperUrl`. -/
inductive ImageTask
  | daily (day : Option Date) (t : CategoriesTab.Task)
  | querying (query : Query)

/-- An await of `_getDailyCategoryImage` ends, or throws; the query is answered. -/
inductive ImageOutcome
  | daily (o : CategoriesTab.Outcome)
  | thrown
  | answered (answer : Result Snapshot)

/-- The day, from when the clock is read on. -/
def dayOf (day : Option Date) : CategoriesTab.Outcome → Option Date
  | .opened today => some today
  | _ => day

/-- What `_getDailyCategoryImage` returns, if it returns with this turn. -/
def urlOf : CategoriesTab.Task → CategoriesTab.Outcome → CategoriesTab.State → Option String
  | .opening _ categoryId, .opened today, s => s.prefs.getString (dailyKey categoryId today)
  | .storing url, _, _ => some url
  | _, _, _ => none

/-- A turn of `_getDailyCategoryImage` leaves its next await, or it returns. -/
def dailyRest (day : Option Date) (url : Option String) :
    List CategoriesTab.Task → Rest ImageTask Image
  | [] => .returned ⟨url, day⟩
  | t :: _ => .suspended (.daily day t)

/-- What `_getFirebaseCategoryWallpaperUrl` returns; the first of the three addresses is never
null. -/
def firebaseUrl (toWallpaper : DynMap → Result Wallpaper) (answer : Result Snapshot) :
    Option String :=
  match getList toWallpaper answer with
  | .ok ws => ws.head?.map Wallpaper.originalUrl
  | .error _ => none

/-- **The image of a tile.** What the platform throws ends the future without a value. -/
def image (toWallpaper : DynMap → Result Wallpaper) :
    Routine CategoriesTab.State ImageTask Listed Image ImageOutcome where
  call x s :=
    if x.isFirebaseCategory then
      (s, .suspended (.querying (getWallpapersByCategory x.category.id 1)))
    else (s, .suspended (.daily none (.opening x.category.name x.category.id)))
  resume
    | .daily day t, .daily o, s =>
      (CategoriesTab.program.resume t o s).map fun x =>
        (x.1, dailyRest (dayOf day o) (urlOf t o s) x.2)
    | .daily day (.opening _ _), .thrown, s => some (s, .returned ⟨none, day⟩)
    | .daily day (.storing _), .thrown, s => some (s, .returned ⟨none, day⟩)
    | .querying _, .answered answer, s => some (s, .returned ⟨firebaseUrl toWallpaper answer, none⟩)
    | _, _, _ => none

/-! ### The tab -/

inductive View
  | skeleton
  | error (e : DartError)
  | list (categories : List Listed)

inductive TileView
  | waiting
  | image (url : String)
  | gradient
deriving DecidableEq

/-- The snapshot of a `FutureBuilder`; what a future throws is a snapshot without data. -/
inductive AsyncSnapshot
  | waiting
  | data (url : Option String)

/-- `builder`. -/
def AsyncSnapshot.view : AsyncSnapshot → TileView
  | .waiting => .waiting
  | .data (some url) => .image url
  | .data none => .gradient

/-- A `FutureBuilder` on the screen: the tile of its future, and its snapshot. -/
structure Builder where
  tile : Tile
  snapshot : AsyncSnapshot

/-- The categories of Firestore, the images, what the last frame showed, and the items of the list
that are on the screen. -/
structure State where
  categories : FirestoreNotifier.State Category
  images : Memo.State CategoriesTab.State Tile Image
  built : View
  builders : ℕ → Option Builder

inductive Task
  | categories (t : CategoriesTask)
  | image (t : Tile × ImageTask)

def Task.ofCategories : Task → Bool
  | .categories _ => true
  | .image _ => false

/-- A frame; an item is built, its `FutureBuilder` hears of the future, it is scrolled away; and the
button of the error is pressed. -/
inductive Call
  | frame
  | itemBuilder (index : ℕ)
  | hear (index : ℕ)
  | dispose (index : ℕ)
  | retry

inductive Outcome
  | categories (o : FirestoreNotifier.Outcome)
  | image (o : ImageOutcome)

def allCategories (firestoreCategories : List Category) : List Listed :=
  firestoreCategories.map (⟨·, true⟩) ++ getCategories.map (⟨·, false⟩)

/-- `build`; the categories of Pexels are there from the start. -/
def build : FirestoreNotifier.AsyncValue (List Category) → View
  | .loading => .skeleton
  | .error e => .error e
  | .data firestoreCategories => .list (allCategories firestoreCategories)

/-- What a `FutureBuilder` that has heard of the future of a tile shows, if the tile was built. -/
def tileView (s : State) (i : Tile) : Option TileView :=
  match s.images.futures i with
  | none => none
  | some .pending => some .waiting
  | some (.completed ⟨some url, _⟩) => some (.image url)
  | some (.completed ⟨none, _⟩) => some .gradient

/-- A `FutureBuilder` that is new, or gets another future, starts to wait. -/
def mount (index : ℕ) (i : Tile) (builders : ℕ → Option Builder) : ℕ → Option Builder :=
  if (builders index).map Builder.tile = some i then builders
  else Function.update builders index (some ⟨i, .waiting⟩)

/-- The callback of a completed future. -/
def hear (index : ℕ) (s : State) : State :=
  match s.builders index with
  | none => s
  | some b =>
    match s.images.futures b.tile with
    | some (.completed r) =>
      { s with
        builders := Function.update s.builders index (some { b with snapshot := .data r.url }) }
    | _ => s

section Program

variable (c : Codec) (toCategory : DynMap → Result Category)
  (toWallpaper : DynMap → Result Wallpaper)

def images : Program (Memo.State CategoriesTab.State Tile Image) (Tile × ImageTask) Listed
    ImageOutcome :=
  memoized (image toWallpaper) tileOf

def itemBuilder (index : ℕ) (s : State) : State × List Task :=
  match s.built with
  | .list categories =>
    match categories[index]? with
    | some x =>
      let y := (images toWallpaper).call x s.images
      ({ s with images := y.1, builders := mount index (tileOf x) s.builders }, y.2.map .image)
    | none => (s, [])
  | _ => (s, [])

/-- The button of the error. -/
def retry (s : State) : State × List Task :=
  match s.built with
  | .error _ =>
    let x := (categoriesProgram c toCategory).call .loadCategories s.categories
    ({ s with categories := x.1 }, x.2.map .categories)
  | _ => (s, [])

/-- **The tab.** -/
def program : Program State Task Call Outcome where
  call
    | .frame, s => ({ s with built := build s.categories.state }, [])
    | .itemBuilder index, s => itemBuilder toWallpaper index s
    | .hear index, s => (hear index s, [])
    | .dispose index, s => ({ s with builders := Function.update s.builders index none }, [])
    | .retry, s => retry c toCategory s
  resume
    | .categories t, .categories o, s =>
      ((categoriesProgram c toCategory).resume t o s.categories).map fun x =>
        ({ s with categories := x.1 }, x.2.map .categories)
    | .image t, .image o, s =>
      ((images toWallpaper).resume t o s.images).map fun x =>
        ({ s with images := x.1 }, x.2.map .image)
    | _, _, _ => none

/-- A new tab: the constructor of the notifier loads the categories, in the first frame. -/
def opened (cache : CacheService) (prefs : CategoriesTab.State) : World State Task :=
  let x := loadCategories c ⟨.loading, cache⟩
  ⟨⟨x.1, ⟨prefs, fun _ => none⟩, build x.1.state, fun _ => none⟩, x.2.map .categories⟩

end Program

/-! ### The images of the tab -/

section Parts

variable {c : Codec} {toCategory : DynMap → Result Category}
  {toWallpaper : DynMap → Result Wallpaper}

def imagesPart :
    Part State Task (Memo.State CategoriesTab.State Tile Image) (Tile × ImageTask) where
  state := State.images
  task
    | .categories _ => none
    | .image t => some t

theorem images_tasks (ts : List (Tile × ImageTask)) : imagesPart.tasks (ts.map .image) = ts :=
  imagesPart.tasks_map_own (fun _ => rfl) ts

theorem images_tasks_categories (ts : List CategoriesTask) :
    imagesPart.tasks (ts.map .categories) = [] :=
  imagesPart.tasks_map_other (fun _ => rfl) ts

theorem hear_eq (index : ℕ) (s : State) :
    ∃ builders, hear index s = { s with builders := builders } := by
  unfold hear
  split
  · exact ⟨s.builders, rfl⟩
  · split
    · exact ⟨_, rfl⟩
    · exact ⟨s.builders, rfl⟩

theorem itemBuilder_eq (toWallpaper : DynMap → Result Wallpaper) (index : ℕ) (s : State) :
    ∃ images builders,
      (itemBuilder toWallpaper index s).1 = { s with images := images, builders := builders } := by
  unfold itemBuilder
  split
  · split
    · exact ⟨_, _, rfl⟩
    · exact ⟨s.images, s.builders, rfl⟩
  · exact ⟨s.images, s.builders, rfl⟩

/-- **The tab contains the images.** -/
theorem containsImages : Contains imagesPart (program c toCategory toWallpaper)
    (images toWallpaper) (fun _ _ _ => True) fun _ _ _ => True where
  call k s := by
    cases k with
    | frame => exact ⟨[], rfl⟩
    | itemBuilder index =>
      simp only [program, itemBuilder]
      split
      · split
        · next x _ =>
          refine ⟨[x], ?_⟩
          rw [images_tasks]
          rfl
        · exact ⟨[], rfl⟩
      · exact ⟨[], rfl⟩
    | hear index =>
      obtain ⟨builders, hb⟩ := hear_eq index s
      refine ⟨[], ?_⟩
      simp only [program, hb]
      rfl
    | dispose index => exact ⟨[], rfl⟩
    | retry =>
      refine ⟨[], ?_⟩
      simp only [program, retry]
      split
      · rw [images_tasks_categories]
        rfl
      · rfl
  other t o s s' ts ht hr := by
    cases t with
    | image t => cases ht
    | categories t =>
      cases o with
      | image o => cases hr
      | categories o =>
        obtain ⟨x, -, hx⟩ := Option.map_eq_some_iff.mp hr
        obtain ⟨rfl, rfl⟩ := Prod.mk.inj hx
        exact ⟨rfl, images_tasks_categories x.2⟩
  own t t' o s s' ts ht _ hr := by
    cases t with
    | categories t => cases ht
    | image t =>
      cases o with
      | categories o => cases hr
      | image o =>
        obtain rfl : t = t' := Option.some.inj ht
        obtain ⟨x, hx, hx'⟩ := Option.map_eq_some_iff.mp hr
        obtain ⟨rfl, rfl⟩ := Prod.mk.inj hx'
        refine ⟨o, trivial, hx.trans ?_⟩
        rw [images_tasks]
        rfl

end Parts

/-! ### What belongs to a tile -/

/-- The preferences have the URL for the category and the day. -/
def Stored (id url : String) (day : Option Date) (s : CategoriesTab.State) : Prop :=
  ∃ d, day = some d ∧ s.prefs.getString (dailyKey id d) = some url

/-- What waits for the image of a tile. -/
def LooksUp : Tile → ImageTask → CategoriesTab.State → Prop
  | .pexels id, .daily _ (.opening _ id'), _ => id' = id
  | .pexels id, .daily day (.fetching _ id' today), _ => id' = id ∧ day = some today
  | .pexels id, .daily day (.storing url), s => Stored id url day s
  | .firebase _, .querying _, _ => True
  | _, _, _ => False

/-- **The image of a category of Pexels is stored** for its day. -/
def Has : Tile → Image → CategoriesTab.State → Prop
  | .pexels id, ⟨some url, day⟩, s => Stored id url day s
  | _, _, _ => True

section Owned

variable {toWallpaper : DynMap → Result Wallpaper} {s s' : CategoriesTab.State} {i j : Tile}
  {id url : String} {day : Option Date} {today : Date}

/-- A tile only looks at what is stored for its category. -/
theorem frame_of (h : ∀ id url day, j = .pexels id → Stored id url day s → Stored id url day s') :
    Frame LooksUp Has j s s' := by
  constructor
  · rintro (⟨d, _ | _ | url⟩ | query) ht
    · cases j <;> exact ht
    · cases j <;> exact ht
    · cases j with
      | pexels id => exact h id url d rfl ht
      | firebase id => exact ht
    · cases j <;> exact ht
  · rintro ⟨_ | url, d⟩ hr
    · cases j <;> trivial
    · cases j with
      | pexels id => exact h id url d rfl hr
      | firebase id => trivial

theorem takes_same {r : Rest ImageTask Image} (h : Left LooksUp Has i (s, r)) :
    Takes LooksUp Has i s (s, r) :=
  ⟨h, fun _ _ => frame_of fun _ _ _ _ hs => hs⟩

theorem takes_lookUp (name id : String) (today : Date) (s : CategoriesTab.State) :
    Takes LooksUp Has (.pexels id) s ((lookUp name id today s).1, dailyRest (some today)
      (s.prefs.getString (dailyKey id today)) (lookUp name id today s).2) := by
  cases hget : s.prefs.getString (dailyKey id today) with
  | some url =>
    simp only [lookUp, hget]
    exact ⟨⟨today, rfl, hget⟩, fun _ _ => frame_of fun _ _ _ _ hs => hs⟩
  | none =>
    simp only [lookUp, hget]
    exact takes_same ⟨rfl, rfl⟩

/-- **A write for one category changes no other**: their keys are different. -/
theorem stored_of_ne {id' : String} (hne : id' ≠ id) (h : Stored id' url day s) (url' : String)
    {owner : String → Option (String × Date)} {cached : List CachedImage} :
    Stored id' url day ⟨s.prefs.setString (dailyKey id today) url', owner, cached⟩ := by
  obtain ⟨d, rfl, hget⟩ := h
  refine ⟨d, rfl, ?_⟩
  rw [← hget]
  exact Prefs.getString_setString_of_ne fun hkey => hne (dailyKey_eq_iff.mp hkey).1

theorem takes_store (id : String) (today : Date) (answer : Answer)
    (s : CategoriesTab.State) : Takes LooksUp Has (.pexels id) s ((store id today answer s).1,
      dailyRest (some today) none (store id today answer s).2) := by
  cases hfetch : Services.DailyImage.fetchDailyCategoryImageUrl answer today with
  | none =>
    simp only [store, hfetch]
    exact takes_same trivial
  | some url =>
    simp only [store, hfetch]
    refine ⟨⟨today, rfl, Prefs.getString_setString⟩, fun j hj => frame_of ?_⟩
    rintro id' url' day rfl hs
    exact stored_of_ne (fun hid => hj (congrArg Tile.pexels hid)) hs url

/-- **Every turn of a lookup** keeps to its own category. -/
theorem owns_image : Owns (image toWallpaper) tileOf LooksUp Has where
  call x s := by
    cases hx : x.isFirebaseCategory with
    | true =>
      simp only [image, tileOf, hx, if_pos]
      exact takes_same trivial
    | false =>
      simp only [image, tileOf, hx, Bool.false_eq_true, if_false]
      exact takes_same rfl
  resume i t o s x ht hr := by
    match i, t, o with
    | .firebase id, .querying query, .answered answer =>
      obtain rfl := Option.some.inj hr
      exact takes_same trivial
    | .pexels id, .daily day (.opening name id'), .daily (.opened today) =>
      obtain rfl : id' = id := ht
      obtain rfl := Option.some.inj hr
      exact takes_lookUp name id' today s
    | .pexels id, .daily day (.opening name id'), .thrown =>
      obtain rfl := Option.some.inj hr
      exact takes_same trivial
    | .pexels id, .daily day (.fetching request id' today), .daily (.answered answer) =>
      obtain ⟨rfl, rfl⟩ := ht
      obtain rfl := Option.some.inj hr
      exact takes_store id' today answer s
    | .pexels id, .daily day (.storing url), .daily (.stored ok) =>
      obtain rfl := Option.some.inj hr
      exact takes_same ht
    | .pexels id, .daily day (.storing url), .thrown =>
      obtain rfl := Option.some.inj hr
      exact takes_same trivial

end Owned

/-! ### Runs -/

section Runs

variable {c : Codec} {toCategory : DynMap → Result Category}
  {toWallpaper : DynMap → Result Wallpaper} {cache : CacheService} {prefs : CategoriesTab.State}
  {w w' : World State Task} {es es' : List (Event Call Outcome)}

theorem build_ne_error {a : FirestoreNotifier.AsyncValue (List Category)} (h : NoError a)
    (e : DartError) : build a ≠ .error e := by
  cases a with
  | loading => exact View.noConfusion
  | error e' => exact absurd rfl (h e')
  | data categories => exact View.noConfusion

/-- No error is there, nor was one in the last frame. -/
def NoErrors (s : State) : Prop := NoError s.categories.state ∧ ∀ e, s.built ≠ .error e

/-- **The categories** are never an error, and load while a task of their notifier is there. -/
theorem settles_program : Settles (program c toCategory toWallpaper) Task.ofCategories NoErrors
    fun s => s.categories.state = .loading where
  call k s h := by
    cases k with
    | frame => exact ⟨⟨h.1, build_ne_error h.1⟩, Or.inl⟩
    | itemBuilder index =>
      obtain ⟨images, builders, hs⟩ := itemBuilder_eq toWallpaper index s
      simp only [program, hs]
      exact ⟨h, Or.inl⟩
    | hear index =>
      obtain ⟨builders, hs⟩ := hear_eq index s
      simp only [program, hs]
      exact ⟨h, Or.inl⟩
    | dispose index => exact ⟨h, Or.inl⟩
    | retry =>
      simp only [program, retry]
      split
      · next e he => exact absurd he (h.2 e)
      · exact ⟨h, Or.inl⟩
  resume t o s x h hr := by
    cases t with
    | categories t =>
      cases o with
      | image o => cases hr
      | categories o =>
        obtain ⟨y, hy, rfl⟩ := Option.map_eq_some_iff.mp hr
        have hanswers := answers_categoriesTask h.1 hy
        refine ⟨⟨hanswers.noError, h.2⟩, fun hload => Or.inr ?_⟩
        obtain ⟨t', ht'⟩ := hanswers.task hload
        exact ⟨.categories t', List.mem_map_of_mem ht', rfl⟩
    | image t =>
      cases o with
      | categories o => cases hr
      | image o =>
        obtain ⟨y, -, rfl⟩ := Option.map_eq_some_iff.mp hr
        exact ⟨h, fun hload => Or.inl ⟨rfl, hload⟩⟩

theorem categories_run (hr : (program c toCategory toWallpaper).run (opened c cache prefs) es =
    some w) : NoErrors w.shared ∧ (w.shared.categories.state = .loading →
      ∃ t ∈ w.tasks, t.ofCategories = true) := by
  have h := answers_loadCategories (c := c) (s := ⟨.loading, cache⟩)
  refine settles_program.run (w := opened c cache prefs)
    ⟨⟨h.noError, build_ne_error h.noError⟩, fun hload => ?_⟩ hr
  obtain ⟨t, ht⟩ := h.task hload
  exact ⟨.categories t, List.mem_map_of_mem ht, rfl⟩

theorem images_run (hr : (program c toCategory toWallpaper).run (opened c cache prefs) es =
    some w) : Sound (imagesPart.see w) ∧ Held LooksUp Has (imagesPart.see w) := by
  obtain ⟨es', hr'⟩ := containsImages.run_all (fun _ _ _ => trivial) hr
  have hsee : imagesPart.see (opened c cache prefs) = Memo.start prefs := by
    show World.mk _ (imagesPart.tasks (List.map _ _)) = _
    rw [images_tasks_categories]
    rfl
  rw [hsee] at hr'
  exact owns_run owns_image hr'

/-- The lookups for a tile that are under way. -/
def lookups (w : World State Task) (i : Tile) : ℕ := Memo.routines i (imagesPart.tasks w.tasks)

theorem running_eq (s : State) (i : Tile) :
    running (s.images.futures i) = if tileView s i = some .waiting then 1 else 0 := by
  unfold tileView
  split
  · next h => rw [h]; rfl
  · next h => rw [h]; rfl
  · next h => rw [h]; rfl
  · next h => rw [h]; rfl

/-! ### Items -/

/-- **An item on the screen** waits, or shows what its tile has. -/
def ItemsShow (s : State) : Prop :=
  ∀ index b, s.builders index = some b →
    ∃ v, tileView s b.tile = some v ∧ (b.snapshot.view = .waiting ∨ b.snapshot.view = v)

theorem tileView_isSome {s : State} {i : Tile} (h : s.images.futures i ≠ none) :
    ∃ v, tileView s i = some v := by
  unfold tileView
  split
  · next hnone => exact absurd hnone h
  · exact ⟨_, rfl⟩
  · exact ⟨_, rfl⟩
  · exact ⟨_, rfl⟩

theorem tileView_completed {s : State} {i : Tile} {r : Image}
    (h : s.images.futures i = some (.completed r)) :
    tileView s i = some (AsyncSnapshot.data r.url).view := by
  obtain ⟨_ | url, day⟩ := r <;> simp only [tileView, h] <;> rfl

/-- A tile that no longer waits stays as it is. -/
theorem tileView_step (hsound : Sound (imagesPart.see w))
    (hs : (program c toCategory toWallpaper).step w e = some w') {i : Tile} {v : TileView}
    (hv : tileView w.shared i = some v) :
    ∃ v', tileView w'.shared i = some v' ∧ (v = .waiting ∨ v' = v) := by
  obtain ⟨es₁, -, hr⟩ := containsImages.step (fun _ _ _ _ _ => trivial) hs
  cases hf : w.shared.images.futures i with
  | none =>
    simp only [tileView, hf] at hv
    cases hv
  | some f =>
    cases f with
    | pending =>
      simp only [tileView, hf] at hv
      have hmade : (imagesPart.see w).shared.futures i ≠ none := by
        rw [show (imagesPart.see w).shared.futures i = _ from hf]
        exact Option.some_ne_none _
      obtain ⟨v', hv'⟩ := tileView_isSome (s := w'.shared) (made_run hsound hmade hr)
      exact ⟨v', hv', Or.inl (Option.some.inj hv).symm⟩
    | completed r =>
      have hkept := tileView_completed (s := w'.shared) (completed_run hsound hf hr)
      rw [tileView_completed hf] at hv
      exact ⟨v, hkept.trans hv, Or.inr rfl⟩

/-- One item changes. -/
theorem builder_update {builders : ℕ → Option Builder} {index j : ℕ} {x : Option Builder}
    {b : Builder} (hb : Function.update builders j x index = some b) :
    builders index = some b ∨ x = some b := by
  by_cases hj : index = j
  · subst hj
    rw [Function.update_self] at hb
    exact Or.inr hb
  · rw [Function.update_of_ne hj] at hb
    exact Or.inl hb

/-- **What a call does to the items**: one is there already, or it waits for a future, or it shows
what its tile has. -/
theorem builders_call (k : Call) (s : State) {index : ℕ} {b : Builder}
    (hb : ((program c toCategory toWallpaper).call k s).1.builders index = some b) :
    s.builders index = some b ∨
    ∃ v, tileView ((program c toCategory toWallpaper).call k s).1 b.tile = some v ∧
      (b.snapshot.view = .waiting ∨ b.snapshot.view = v) := by
  cases k with
  | frame => exact Or.inl hb
  | retry =>
    simp only [program, retry] at hb
    split at hb <;> exact Or.inl hb
  | dispose j =>
    rcases builder_update hb with hold | hgone
    · exact Or.inl hold
    · cases hgone
  | hear j =>
    simp only [program, hear] at hb ⊢
    split at hb
    · exact Or.inl hb
    · split at hb
      · next r hr =>
        rcases builder_update hb with hold | hnew
        · exact Or.inl hold
        · obtain rfl := Option.some.inj hnew
          exact Or.inr ⟨_, tileView_completed hr, Or.inr rfl⟩
      · exact Or.inl hb
  | itemBuilder j =>
    simp only [program, itemBuilder] at hb ⊢
    split at hb
    · split at hb
      · next x _ =>
        simp only [mount] at hb
        split_ifs at hb
        · exact Or.inl hb
        · rcases builder_update hb with hold | hnew
          · exact Or.inl hold
          · obtain rfl := Option.some.inj hnew
            obtain ⟨v, hv⟩ := tileView_isSome (s := { s with
              images := ((images toWallpaper).call x s.images).1 }) (made_call x s.images)
            exact Or.inr ⟨v, hv, Or.inl rfl⟩
      · exact Or.inl hb
    · exact Or.inl hb

theorem itemsShow_step (hsound : Sound (imagesPart.see w)) (h : ItemsShow w.shared)
    (hs : (program c toCategory toWallpaper).step w e = some w') : ItemsShow w'.shared := by
  intro index b hb
  have hkept : w.shared.builders index = some b → ∃ v, tileView w'.shared b.tile = some v ∧
      (b.snapshot.view = .waiting ∨ b.snapshot.view = v) := by
    intro hold
    obtain ⟨v, hv, hshows⟩ := h index b hold
    obtain ⟨v', hv', hsame⟩ := tileView_step hsound hs hv
    refine ⟨v', hv', ?_⟩
    rcases hshows with hwaits | hshows
    · exact Or.inl hwaits
    · exact hsame.imp hshows.trans fun heq => hshows.trans heq.symm
  rcases Program.step_cases hs with ⟨k, rfl, rfl⟩ | ⟨l, t, r, o, s, ts, rfl, ht, hr, rfl⟩
  · exact (builders_call k w.shared hb).elim hkept id
  · refine hkept ?_
    cases t with
    | categories t =>
      cases o with
      | image o => cases hr
      | categories o =>
        obtain ⟨x, -, hx⟩ := Option.map_eq_some_iff.mp hr
        obtain ⟨rfl, rfl⟩ := Prod.mk.inj hx
        exact hb
    | image t =>
      cases o with
      | categories o => cases hr
      | image o =>
        obtain ⟨x, -, hx⟩ := Option.map_eq_some_iff.mp hr
        obtain ⟨rfl, rfl⟩ := Prod.mk.inj hx
        exact hb

theorem itemsShow_run (hr : (program c toCategory toWallpaper).run (opened c cache prefs) es =
    some w) : ItemsShow w.shared := by
  refine (Program.run_inv (I := fun w => (∃ es, (program c toCategory toWallpaper).run
      (opened c cache prefs) es = some w) ∧ ItemsShow w.shared) (fun w e w' hw hs => ?_)
    ⟨⟨[], rfl⟩, fun index b hb => by cases hb⟩ hr).2
  obtain ⟨⟨es, hes⟩, hshow⟩ := hw
  refine ⟨⟨es ++ [e], ?_⟩, itemsShow_step (images_run hes).1 hshow hs⟩
  rw [Program.run_concat, hes]
  exact hs

/-! ### The results -/

/-- **The tab settles**: whatever fails, it never shows its error, in the last frame or in one that
is built now; such a frame shows the skeleton only while the categories are loaded; a tile waits
while exactly one lookup for it is under way; and an item on the screen waits or shows what its tile
has. -/
theorem tab_settles (c : Codec) (toCategory : DynMap → Result Category)
    (toWallpaper : DynMap → Result Wallpaper) (cache : CacheService) (prefs : CategoriesTab.State)
    (es : List (Event Call Outcome)) (w : World State Task)
    (hr : (program c toCategory toWallpaper).run (opened c cache prefs) es = some w) :
    (∀ e, w.shared.built ≠ .error e ∧ build w.shared.categories.state ≠ .error e) ∧
    (build w.shared.categories.state = .skeleton → ∃ t, .categories t ∈ w.tasks) ∧
    (∀ i, lookups w i = if tileView w.shared i = some .waiting then 1 else 0) ∧
    ItemsShow w.shared := by
  obtain ⟨⟨hnone, hbuilt⟩, htask⟩ := categories_run hr
  refine ⟨fun e => ⟨hbuilt e, build_ne_error hnone e⟩, fun hskeleton => ?_, fun i => ?_,
    itemsShow_run hr⟩
  · have hload : w.shared.categories.state = .loading := by
      unfold build at hskeleton
      split at hskeleton
      · next hstate => exact hstate
      · cases hskeleton
      · cases hskeleton
    obtain ⟨t, ht, hof⟩ := htask hload
    cases t with
    | categories t => exact ⟨t, ht⟩
    | image t => cases hof
  · rw [← running_eq]
    exact (images_run hr).1 i

/-- **A tile keeps its image**: once a lookup is over, the tile shows what it gave ever after (an
item of it that has not heard of it waits), no other is begun for it, and the preferences keep the
image of a category of Pexels for the day on which it was looked up. -/
theorem tile_kept (c : Codec) (toCategory : DynMap → Result Category)
    (toWallpaper : DynMap → Result Wallpaper) (cache : CacheService) (prefs : CategoriesTab.State)
    (es es' : List (Event Call Outcome)) (w w' : World State Task)
    (hr : (program c toCategory toWallpaper).run (opened c cache prefs) es = some w)
    (hr' : (program c toCategory toWallpaper).run w es' = some w') (i : Tile) (r : Image)
    (hi : w.shared.images.futures i = some (.completed r)) :
    tileView w'.shared i = tileView w.shared i ∧
    (∀ index b, w'.shared.builders index = some b → b.tile = i →
      b.snapshot.view = .waiting ∨ tileView w.shared i = some b.snapshot.view) ∧
    lookups w' i = 0 ∧
    ∀ id url, i = .pexels id → r.url = some url → ∃ d, r.day = some d ∧
      w'.shared.images.shared.prefs.getString (dailyKey id d) = some url := by
  have hall : (program c toCategory toWallpaper).run (opened c cache prefs) (es ++ es') =
      some w' := by rw [Program.run_append, hr]; exact hr'
  obtain ⟨hsound, -⟩ := images_run hr
  obtain ⟨hsound', hheld⟩ := images_run hall
  have hkept : w'.shared.images.futures i = some (.completed r) := by
    obtain ⟨es₁, hr₁⟩ := containsImages.run_all (fun _ _ _ => trivial) hr'
    exact completed_run hsound hi hr₁
  have hsame : tileView w'.shared i = tileView w.shared i := by
    rw [tileView_completed hkept, tileView_completed hi]
  refine ⟨hsame, ?_, ?_, ?_⟩
  · rintro index b hb rfl
    obtain ⟨v, hv, hshows⟩ := itemsShow_run hall index b hb
    refine hshows.imp_right ?_
    rintro rfl
    exact hsame.symm.trans hv
  · show routines i (imagesPart.see w').tasks = 0
    rw [hsound' i, show (imagesPart.see w').shared.futures i = _ from hkept]
    rfl
  · rintro id url rfl hurl
    obtain ⟨_, day⟩ := r
    obtain rfl := hurl
    exact hheld.result (.pexels id) ⟨some url, day⟩ hkept

end Runs

/-- A tab on a device without boxes; the first tile is built, and its image arrives. -/
def natureBuilt : List (Event Call Outcome) :=
  [.resume 0 (.categories (.answered (.ok []))), .call .frame, .call (.itemBuilder 0),
    .resume 0 (.image (.daily (.opened januaryEleventh))),
    .resume 0 (.image (.daily (.answered (.wallpapers [sampleWallpaper "7" "pexels"])))),
    .resume 0 (.image (.daily (.stored true)))]

def sampleTab : World State Task :=
  opened (sampleCodec []) ⟨none, none, none, none⟩ installed.shared

def sampleProgram : Program State Task Call Outcome :=
  program (sampleCodec []) (Category.fromFirestore (sampleCodec []))
    (Wallpaper.fromFirestore sampleDevice)

theorem nature_settles : ∃ w, sampleProgram.run sampleTab (natureBuilt.take 3) = some w ∧
    w.tasks.length = 1 ∧
    (∀ e, w.shared.built ≠ .error e ∧ build w.shared.categories.state ≠ .error e) ∧
    (build w.shared.categories.state = .skeleton → ∃ t, .categories t ∈ w.tasks) ∧
    (∀ i, lookups w i = if tileView w.shared i = some .waiting then 1 else 0) ∧
    ItemsShow w.shared :=
  ⟨_, rfl, rfl, tab_settles (sampleCodec []) (Category.fromFirestore (sampleCodec []))
    (Wallpaper.fromFirestore sampleDevice) ⟨none, none, none, none⟩ installed.shared
    (natureBuilt.take 3) _ rfl⟩

/-- Its item hears of the image, is scrolled away and comes back. -/
def natureAgain : List (Event Call Outcome) :=
  [.call (.hear 0), .call (.dispose 0), .call (.itemBuilder 0), .call (.hear 0)]

theorem nature_kept : ∃ w w' d, sampleProgram.run sampleTab natureBuilt = some w ∧
    sampleProgram.run w natureAgain = some w' ∧
    w'.shared.builders 0 = some ⟨.pexels "nature", .data (some "https://img/7.jpg")⟩ ∧
    tileView w'.shared (.pexels "nature") = some (.image "https://img/7.jpg") ∧
    w'.shared.images.shared.prefs.getString (dailyKey "nature" d) = some "https://img/7.jpg" := by
  obtain ⟨hview, -, -, hstored⟩ := tile_kept (sampleCodec [])
    (Category.fromFirestore (sampleCodec [])) (Wallpaper.fromFirestore sampleDevice)
    ⟨none, none, none, none⟩ installed.shared natureBuilt natureAgain _ _ rfl rfl
    (.pexels "nature") ⟨some "https://img/7.jpg", some januaryEleventh⟩ rfl
  obtain ⟨d, -, hget⟩ := hstored "nature" _ rfl rfl
  exact ⟨_, _, d, rfl, rfl, rfl, hview, hget⟩

end PixsBliss.Pages.CategoryTiles
