import PixsBliss.Lib.Components
import PixsBliss.Providers.Provenance

/-! # All notifiers on one cache service

`CacheService` is a singleton: the notifier of the Discover tab, those of the Firestore categories,
the one of the list of categories and the two feeds all read and write it, in one process. Each
writes only one of the four boxes, so what `Providers.Provenance` says of one notifier holds of all
of them together (`shown_were_served`). A date that a document does not have is read off the clock,
so every event comes with the device as it is at its moment. -/

namespace PixsBliss.Providers.SharedCache

open PixsBliss.Lib.Async PixsBliss.Lib.Components PixsBliss.Lib.Flight PixsBliss.Lib.Iso8601
open PixsBliss.Lib.JsonText PixsBliss.Lib.Turns PixsBliss.Models PixsBliss.Models.Json
open PixsBliss.Services PixsBliss.Services.Cache PixsBliss.Services.CacheContents
open PixsBliss.Services.CacheText PixsBliss.Services.FirestoreService
open PixsBliss.Services.PexelsPhotos (answer curatedTexts sampleEpoch samplePage)
open PixsBliss.Providers.FirestoreNotifier (AsyncValue WallpapersCall CategoriesCall
  wallpapersProgram categoriesProgram)
open PixsBliss.Providers.PexelsFeed (FeedKind PexelsWallpapersState pexelsWallpapersNotifier
  pexelsTrendingWallpapersNotifier)
open PixsBliss.Providers.Provenance

/-! ### The notifiers -/

/-- `firestoreWallpapersProvider` and, for every category, `firestoreCategoryWallpapersProvider`;
`firestoreCategoriesProvider`; the providers of the two feeds. -/
inductive Notifier
  | wallpapers (category : Option String)
  | categories
  | feed (trending : Bool)
deriving DecidableEq

def feedKind : Bool → FeedKind
  | false => pexelsWallpapersNotifier
  | true => pexelsTrendingWallpapersNotifier

/-- What a notifier has for itself. -/
abbrev Own : Notifier → Type
  | .wallpapers _ => AsyncValue (List Wallpaper)
  | .categories => AsyncValue (List Category)
  | .feed _ => PexelsWallpapersState × Bool

abbrev NotifierState : Notifier → Type
  | .wallpapers _ => FirestoreNotifier.State Wallpaper
  | .categories => FirestoreNotifier.State Category
  | .feed _ => PexelsFeed.State

abbrev NotifierTask : Notifier → Type
  | .wallpapers _ => FirestoreNotifier.WallpapersTask
  | .categories => FirestoreNotifier.CategoriesTask
  | .feed _ => PexelsFeed.Task

abbrev NotifierCall : Notifier → Type
  | .wallpapers _ => WallpapersCall
  | .categories => CategoriesCall
  | .feed _ => PexelsFeed.Call

abbrev NotifierOutcome : Notifier → Type
  | .wallpapers _ | .categories => FirestoreNotifier.Outcome
  | .feed _ => PexelsFeed.Outcome

/-- Every notifier has the cache service in its state. -/
def joint : ∀ i, Joint (Own i) CacheService (NotifierState i)
  | .wallpapers _ =>
    ⟨fun a cache => ⟨a, cache⟩, fun s => s.state, fun s => s.cache, fun _ _ => rfl, fun _ _ => rfl⟩
  | .categories =>
    ⟨fun a cache => ⟨a, cache⟩, fun s => s.state, fun s => s.cache, fun _ _ => rfl, fun _ _ => rfl⟩
  | .feed _ =>
    ⟨fun a cache => ⟨a.1, a.2, cache⟩, fun s => (s.state, s.hasLoadedFromCache), fun s => s.cache,
      fun _ _ => rfl, fun _ _ => rfl⟩

section Programs

variable (c : Codec) (toCategory : DynMap → Result Category)

/-- A notifier, at a moment with this decoder of wallpapers. -/
def notifier (toWallpaper : DynMap → Result Wallpaper) :
    ∀ i, Program (NotifierState i) (NotifierTask i) (NotifierCall i) (NotifierOutcome i)
  | .wallpapers _ => wallpapersProgram c toWallpaper
  | .categories => categoriesProgram c toCategory
  | .feed trending => PexelsFeed.program (feedKind trending) c

/-- **All notifiers**, with their calls and answers in any order. -/
def program (toWallpaper : Device → DynMap → Result Wallpaper) :
    Program (Shared Own CacheService) ((i : Notifier) × NotifierTask i)
      (Device × (i : Notifier) × NotifierCall i) (Device × (i : Notifier) × NotifierOutcome i) :=
  inTime fun d => together joint (notifier c toCategory (toWallpaper d))

end Programs

/-- A new process over the boxes of a device. -/
def newProcess (cache : CacheService) :
    World (Shared Own CacheService) ((i : Notifier) × NotifierTask i) where
  shared :=
    { own := fun
        | .wallpapers _ => .loading
        | .categories => .loading
        | .feed _ => ({}, false)
      resource := cache }
  tasks := []

/-! ### Each box has its writers -/

section Frames

variable {c : Codec} {toWallpaper : DynMap → Result Wallpaper}
  {toCategory : DynMap → Result Category}

theorem afterQuery_cache (k : WallpapersCall) (answer : Result Snapshot)
    (s : FirestoreNotifier.State Wallpaper) :
    (FirestoreNotifier.afterQuery c toWallpaper k answer s).1.cache = s.cache := by
  obtain ⟨ws, hws⟩ := getList_ok toWallpaper answer
  cases k with
  | loadWallpapers now | refresh =>
    simp only [FirestoreNotifier.afterQuery, hws, FirestoreNotifier.cacheAndShow]
    split <;> rfl
  | _ => simp only [FirestoreNotifier.afterQuery, FirestoreNotifier.showList, hws]

theorem writeCache_cache {κ α : Type} (l : List α) (s : FirestoreNotifier.State α)
    (rest : List BoxOp) :
    (FirestoreNotifier.writeCache (κ := κ) l s rest).1.cache = s.cache := by
  cases rest <;> rfl

theorem wallpapers_call_cache (k : WallpapersCall) (s : FirestoreNotifier.State Wallpaper) :
    ((wallpapersProgram c toWallpaper).call k s).1.cache = s.cache := by
  cases k with
  | loadWallpapers now =>
    simp only [wallpapersProgram, FirestoreNotifier.loadWallpapers]
    split_ifs <;> rfl
  | _ => rfl

/-- Only the box of the wallpapers. -/
theorem wallpapers_resume_cache {t : FirestoreNotifier.WallpapersTask}
    {o : FirestoreNotifier.Outcome} {s : FirestoreNotifier.State Wallpaper}
    {x : FirestoreNotifier.State Wallpaper × List FirestoreNotifier.WallpapersTask}
    (hr : (wallpapersProgram c toWallpaper).resume t o s = some x) :
    ∃ b, x.1.cache = { s.cache with wallpapersBox := b } := by
  cases t with
  | querying k query =>
    cases o with
    | answered answer =>
      obtain rfl := Option.some.inj hr
      exact ⟨_, afterQuery_cache k answer s⟩
    | _ => cases hr
  | caching rest ws =>
    cases rest with
    | nil => cases hr
    | cons op rest =>
      cases o with
      | answered answer => cases hr
      | done now =>
        obtain rfl := Option.some.inj hr
        exact ⟨_, writeCache_cache ws _ rest⟩
      | failed =>
        obtain rfl := Option.some.inj hr
        exact ⟨_, rfl⟩

theorem categories_call_cache (k : CategoriesCall) (s : FirestoreNotifier.State Category) :
    ((categoriesProgram c toCategory).call k s).1.cache = s.cache := by
  cases k <;> simp only [categoriesProgram, FirestoreNotifier.loadCategories] <;> split_ifs <;> rfl

/-- Only the box of the categories. -/
theorem categories_resume_cache {t : FirestoreNotifier.CategoriesTask}
    {o : FirestoreNotifier.Outcome} {s : FirestoreNotifier.State Category}
    {x : FirestoreNotifier.State Category × List FirestoreNotifier.CategoriesTask}
    (hr : (categoriesProgram c toCategory).resume t o s = some x) :
    ∃ b, x.1.cache = { s.cache with categoriesBox := b } := by
  cases t with
  | querying k query =>
    cases o with
    | answered answer =>
      obtain rfl := Option.some.inj hr
      obtain ⟨cats, hcats⟩ := getList_ok toCategory answer
      refine ⟨s.cache.categoriesBox, ?_⟩
      simp only [FirestoreNotifier.afterCategoriesQuery, hcats]
      split <;> rfl
    | _ => cases hr
  | caching rest cats =>
    cases rest with
    | nil => cases hr
    | cons op rest =>
      cases o with
      | answered answer => cases hr
      | done now =>
        obtain rfl := Option.some.inj hr
        exact ⟨_, writeCache_cache cats _ rest⟩
      | failed =>
        obtain rfl := Option.some.inj hr
        exact ⟨_, rfl⟩

variable {kind : FeedKind}

theorem withBox_box (copy : WallpaperCopy) (cache : CacheService) :
    copy.withBox (copy.box cache) cache = cache := by cases copy <;> rfl

theorem load_cache (refresh : Bool) (now : DateTime) (s : PexelsFeed.State) :
    (PexelsFeed.loadWallpapers kind c refresh now s).1.cache = s.cache := by
  unfold PexelsFeed.loadWallpapers
  split_ifs <;> rfl

theorem feed_call_cache (k : PexelsFeed.Call) (s : PexelsFeed.State) :
    ((PexelsFeed.program kind c).call k s).1.cache = s.cache := by
  cases k with
  | loadWallpapers refresh now => exact load_cache refresh now s
  | refresh => rfl
  | loadMore now =>
    simp only [PexelsFeed.program]
    split_ifs
    · exact load_cache false now s
    · rfl

/-- Only the box of the feed. -/
theorem feed_resume_cache {t : PexelsFeed.Task} {o : PexelsFeed.Outcome} {s : PexelsFeed.State}
    {x : PexelsFeed.State × List PexelsFeed.Task}
    (hr : (PexelsFeed.program kind c).resume t o s = some x) :
    ∃ b, x.1.cache = kind.copy.withBox b s.cache := by
  have hsame : ∃ b, s.cache = kind.copy.withBox b s.cache := ⟨_, (withBox_box _ _).symm⟩
  cases t with
  | fetching f =>
    cases o with
    | answered a =>
      cases a <;>
      · obtain rfl := Option.some.inj hr
        exact hsame
    | _ => cases hr
  | caching rest awaited =>
    cases rest with
    | nil => cases hr
    | cons op rest =>
      cases o with
      | answered a => cases hr
      | done now =>
        obtain rfl := Option.some.inj hr
        exact ⟨_, rfl⟩
      | failed =>
        obtain rfl := Option.some.inj hr
        exact hsame
  | clearing =>
    cases o with
    | answered a => cases hr
    | done now =>
      obtain rfl := Option.some.inj hr
      exact ⟨_, load_cache true _ _⟩
    | failed =>
      obtain rfl := Option.some.inj hr
      obtain ⟨b, hb⟩ := hsame
      exact ⟨b, (load_cache true _ _).trans hb⟩
  | returning =>
    cases o with
    | done now =>
      obtain rfl := Option.some.inj hr
      exact hsame
    | _ => cases hr

end Frames

/-! ### The boxes -/

/-- What the boxes hold: wallpapers with `W`, categories with `K`, and wallpapers of photos with
`F`. -/
structure Boxes (c : Codec) (W : Wallpaper → Prop) (K : Category → Prop) (F : Wallpaper → Prop)
    (cache : CacheService) : Prop where
  wallpapers : ∀ b, cache.wallpapersBox = some b → Holds wallpaperKind c W b
  categories : ∀ b, cache.categoriesBox = some b → Holds categoryKind c K b
  feed : ∀ trending b, (feedKind trending).copy.box cache = some b → Holds wallpaperKind c F b

/-- What a notifier shows. -/
def Shown (W : Wallpaper → Prop) (K : Category → Prop) (F : Wallpaper → Prop) :
    ∀ i, Own i → Prop
  | .wallpapers _, a => ∀ ws, a = .data ws → ∀ w ∈ ws, W w
  | .categories, a => ∀ cats, a = .data cats → ∀ cat ∈ cats, K cat
  | .feed _, a => ∀ w ∈ a.1.wallpapers, F w

/-- What a notifier is about to write. -/
def Pending (c : Codec) (W : Wallpaper → Prop) (K : Category → Prop) (F : Wallpaper → Prop) :
    ∀ i, NotifierTask i → Prop
  | .wallpapers _, t => MadeTask wallpaperKind c W t
  | .categories, t => MadeTask categoryKind c K t
  | .feed _, t => FeedTask c F t

/-- The answers hold documents of the two collections, and photos of the API; wallpapers are decoded
on the device as it is in `devices`. -/
def Answered (z : Zone) (devices : Set Device) (documents categoryDocuments : Set (String × DynMap))
    (photos : Set DynMap) (d : Device) :
    ∀ i, NotifierTask i → NotifierOutcome i → NotifierState i → Prop
  | .wallpapers _, t, o, s => d ∈ devices ∧ AnswersFrom documents t o s
  | .categories, t, o, s => AnswersFrom categoryDocuments t o s
  | .feed _, t, o, s => Replied z photos t o s

section Boxes

variable {c : Codec} {W F : Wallpaper → Prop} {K : Category → Prop} {cache cache' : CacheService}

theorem Boxes.with_wallpapers (h : Boxes c W K F cache)
    (hbox : ∃ b, cache' = { cache with wallpapersBox := b })
    (hholds : ∀ b, cache'.wallpapersBox = some b → Holds wallpaperKind c W b) :
    Boxes c W K F cache' := by
  obtain ⟨b, rfl⟩ := hbox
  refine ⟨hholds, h.categories, fun trending => ?_⟩
  cases trending with
  | false => exact h.feed false
  | true => exact h.feed true

theorem Boxes.with_categories (h : Boxes c W K F cache)
    (hbox : ∃ b, cache' = { cache with categoriesBox := b })
    (hholds : ∀ b, cache'.categoriesBox = some b → Holds categoryKind c K b) :
    Boxes c W K F cache' := by
  obtain ⟨b, rfl⟩ := hbox
  refine ⟨h.wallpapers, hholds, fun trending => ?_⟩
  cases trending with
  | false => exact h.feed false
  | true => exact h.feed true

theorem Boxes.with_feed (h : Boxes c W K F cache) (trending : Bool)
    (hbox : ∃ b, cache' = (feedKind trending).copy.withBox b cache)
    (hholds : ∀ b, (feedKind trending).copy.box cache' = some b → Holds wallpaperKind c F b) :
    Boxes c W K F cache' := by
  obtain ⟨b, rfl⟩ := hbox
  cases trending with
  | false =>
    refine ⟨h.wallpapers, h.categories, fun trending => ?_⟩
    cases trending with
    | false => exact hholds
    | true => exact h.feed true
  | true =>
    refine ⟨h.wallpapers, h.categories, fun trending => ?_⟩
    cases trending with
    | false => exact h.feed false
    | true => exact hholds

end Boxes

/-! ### What all of them show -/

section Served

/-- The wallpapers of the documents, whenever they were decoded. -/
abbrev ServedWallpaper (D : Doubles Float) (z : Zone) (lower : String → String)
    (devices : Set Device) (documents : Set (String × DynMap)) : Wallpaper → Prop :=
  Decoded (documentDecoders D z lower devices) documents

/-- The categories of the documents. -/
abbrev ServedCategory (D : Doubles Float) (z : Zone) (lower : String → String)
    (documents : Set (String × DynMap)) : Category → Prop :=
  Decoded {Category.fromFirestore (deviceCodec D z lower)} documents

variable (D : Doubles Float) (z : Zone) (lower : String → String) {devices : Set Device}
  {documents categoryDocuments : Set (String × DynMap)} {photos : Set DynMap}

/-- **Each notifier keeps the boxes of all of them**, at every moment. -/
theorem eachTurn_notifier
    (hread : ∀ w, ServedWallpaper D z lower devices documents w →
      ReadsBack (deviceCodec D z lower) w)
    (hcats : ∀ cat, ServedCategory D z lower categoryDocuments cat →
      CategoryReadsBack (deviceCodec D z lower) cat)
    (hphotos : ∀ photo ∈ photos, ∀ e ∈ photo, IsJson D.ReadsBack e.2) (d : Device)
    (i : Notifier) :
    EachTurn (notifier (deviceCodec D z lower) (Category.fromFirestore (deviceCodec D z lower))
        (documentDecoder D z lower d) i)
      (Answered z devices documents categoryDocuments photos d i)
      (fun s =>
        Shown (Known (ServedWallpaper D z lower devices documents))
          (ServedCategory D z lower categoryDocuments) (OfPhoto z photos) i ((joint i).own s) ∧
        Boxes (deviceCodec D z lower) (Known (ServedWallpaper D z lower devices documents))
          (ServedCategory D z lower categoryDocuments) (OfPhoto z photos) ((joint i).resource s))
      (Pending (deviceCodec D z lower) (Known (ServedWallpaper D z lower devices documents))
        (ServedCategory D z lower categoryDocuments) (OfPhoto z photos) i) := by
  cases i with
  | wallpapers category =>
    have hturns := eachTurn_wallpapers (c := deviceCodec D z lower) (documentDecoder D z lower d)
      hread
    refine ⟨fun k s hs => ?_, fun t o s x hs ht hC hr => ?_⟩
    · obtain ⟨hmade, htasks⟩ := hturns.call k s ⟨hs.1, hs.2.wallpapers⟩
      have hbox : ∃ b, ((wallpapersProgram (deviceCodec D z lower)
          (documentDecoder D z lower d)).call k s).1.cache =
            { s.cache with wallpapersBox := b } := ⟨_, wallpapers_call_cache k s⟩
      exact ⟨⟨hmade.shown, hs.2.with_wallpapers hbox hmade.box⟩, htasks⟩
    · have hdecoder : documentDecoder D z lower d ∈ documentDecoders D z lower devices :=
        Set.mem_image_of_mem _ hC.1
      obtain ⟨hmade, htasks⟩ := hturns.resume t o s x ⟨hs.1, hs.2.wallpapers⟩ ht
        ⟨hdecoder, hC.2⟩ hr
      have hbox := wallpapers_resume_cache hr
      exact ⟨⟨hmade.shown, hs.2.with_wallpapers hbox hmade.box⟩, htasks⟩
  | categories =>
    have hturns := eachTurn_categories (c := deviceCodec D z lower) hcats
    refine ⟨fun k s hs => ?_, fun t o s x hs ht hC hr => ?_⟩
    · obtain ⟨hmade, htasks⟩ := hturns.call k s ⟨hs.1, hs.2.categories⟩
      have hbox : ∃ b, ((categoriesProgram (deviceCodec D z lower)
          (Category.fromFirestore (deviceCodec D z lower))).call k s).1.cache =
            { s.cache with categoriesBox := b } := ⟨_, categories_call_cache k s⟩
      exact ⟨⟨hmade.shown, hs.2.with_categories hbox hmade.box⟩, htasks⟩
    · obtain ⟨hmade, htasks⟩ := hturns.resume t o s x ⟨hs.1, hs.2.categories⟩ ht hC hr
      have hbox := categories_resume_cache hr
      exact ⟨⟨hmade.shown, hs.2.with_categories hbox hmade.box⟩, htasks⟩
  | feed trending =>
    have hturns := eachTurn_feed (feedKind trending) D z lower hphotos
    refine ⟨fun k s hs => ?_, fun t o s x hs ht hC hr => ?_⟩
    · obtain ⟨hmade, htasks⟩ := hturns.call k s ⟨hs.1, hs.2.feed trending⟩
      have hbox : ∃ b, ((PexelsFeed.program (feedKind trending) (deviceCodec D z lower)).call k
          s).1.cache = (feedKind trending).copy.withBox b s.cache :=
        ⟨_, (feed_call_cache k s).trans (withBox_box _ _).symm⟩
      exact ⟨⟨hmade.shown, hs.2.with_feed trending hbox hmade.box⟩, htasks⟩
    · obtain ⟨hmade, htasks⟩ := hturns.resume t o s x ⟨hs.1, hs.2.feed trending⟩ ht hC hr
      have hbox := feed_resume_cache hr
      exact ⟨⟨hmade.shown, hs.2.with_feed trending hbox hmade.box⟩, htasks⟩

/-- **Nothing that is shown is made up**: whatever the notifiers are called for, in whatever order
they are answered, write and fail, wherever the processes are killed and however the clock of the
device goes, each wallpaper, category and photo that one of them shows was given by its server at
some time. -/
theorem shown_were_served (D : Doubles Float) (z : Zone) (lower : String → String)
    (devices : Set Device) (documents categoryDocuments : Set (String × DynMap))
    (photos : Set DynMap)
    (hdocs : ∀ w, ServedWallpaper D z lower devices documents w → OnDevice z w)
    (hcats : ∀ cat, ServedCategory D z lower categoryDocuments cat →
      IsInt64 cat.order ∧ ∀ n ∈ cat.wallpaperCount, IsInt64 n)
    (hphotos : ∀ photo ∈ photos, ∀ e ∈ photo, IsJson D.ReadsBack e.2) (cache : CacheService)
    (hcache : Boxes (deviceCodec D z lower) (Known (ServedWallpaper D z lower devices documents))
      (ServedCategory D z lower categoryDocuments) (OfPhoto z photos) cache)
    (w : World (Shared Own CacheService) ((i : Notifier) × NotifierTask i))
    (hw : Lives (program (deviceCodec D z lower) (Category.fromFirestore (deviceCodec D z lower))
        (documentDecoder D z lower))
      (fun t o s =>
        OfEach joint (Answered z devices documents categoryDocuments photos o.1) t o.2 s)
      (fun s => newProcess s.resource) (newProcess cache) w) :
    (∀ category ws, w.shared.own (.wallpapers category) = .data ws →
      ∀ x ∈ ws, Known (ServedWallpaper D z lower devices documents) x) ∧
    (∀ cats, w.shared.own .categories = .data cats → ∀ cat ∈ cats,
      ServedCategory D z lower categoryDocuments cat) ∧
    ∀ trending, ∀ x ∈ (w.shared.own (.feed trending)).1.wallpapers, OfPhoto z photos x := by
  have hturns := eachTurn_inTime fun d => eachTurn_together (J := joint)
    (eachTurn_notifier D z lower (fun w hw => readsBack_wallpaper (hdocs w hw))
      (fun cat hcat => readsBackJson (isJson_category (hcats cat hcat).1 (hcats cat hcat).2))
      hphotos d)
  have hnew : ∀ i, Shown (Known (ServedWallpaper D z lower devices documents))
      (ServedCategory D z lower categoryDocuments) (OfPhoto z photos) i
      ((newProcess cache).shared.own i) := by
    intro i
    cases i with
    | wallpapers category => nofun
    | categories => nofun
    | feed trending => exact List.forall_mem_nil _
  obtain ⟨⟨hshown, -⟩, -⟩ := hturns.lives (turn_nil ⟨hnew, hcache⟩)
    (fun s hs => turn_nil ⟨hnew, hs.2⟩) hw
  exact ⟨fun category => hshown (.wallpapers category), hshown .categories,
    fun trending => hshown (.feed trending)⟩

/-- The Discover tab and a feed load at once, and the write of the one fails; an hour later the tab
is refreshed again. -/
def sampleStart : List (Event (Device × (i : Notifier) × NotifierCall i)
    (Device × (i : Notifier) × NotifierOutcome i)) :=
  [.call (sampleEpoch, ⟨.wallpapers none, .refresh⟩),
    .call (sampleEpoch, ⟨.feed false, .loadWallpapers true ⟨0, true⟩⟩),
    .resume 0 (sampleEpoch,
      ⟨.wallpapers none, .answered (.ok [("1", [("url", .str "https://img/1.jpg")])])⟩),
    .resume 1 (sampleEpoch, ⟨.feed false, .answered (answer curatedTexts (fun _ => "") sampleEpoch
      (.response 200 samplePage))⟩),
    .resume 0 (sampleEpoch, ⟨.wallpapers none, .failed⟩),
    .call (sampleLater, ⟨.wallpapers none, .refresh⟩),
    .resume 1 (sampleLater,
      ⟨.wallpapers none, .answered (.ok [("1", [("url", .str "https://img/1.jpg")])])⟩),
    .resume 1 (sampleLater, ⟨.wallpapers none, .failed⟩)]

def sampleProgram : Program (Shared Own CacheService) ((i : Notifier) × NotifierTask i)
    (Device × (i : Notifier) × NotifierCall i) (Device × (i : Notifier) × NotifierOutcome i) :=
  program sampleConversions (Category.fromFirestore sampleConversions)
    (documentDecoder sampleDoubles sampleZone String.toLower)

abbrev SampleAnswered (t : (i : Notifier) × NotifierTask i)
    (o : Device × (i : Notifier) × NotifierOutcome i) (s : Shared Own CacheService) : Prop :=
  OfEach joint (Answered sampleZone {sampleEpoch, sampleLater} sampleDocuments sampleCategories
    samplePhotos o.1) t o.2 s

theorem samplePage_answered (t : NotifierTask (.feed false)) (s : Shared Own CacheService) :
    SampleAnswered ⟨.feed false, t⟩ (sampleEpoch, ⟨.feed false, .answered (answer curatedTexts
      (fun _ => "") sampleEpoch (.response 200 samplePage))⟩) s :=
  fun _ => replied_samplePage t (stateOf joint (.feed false) s)

theorem sampleStart_answered : sampleProgram.Each (Meets SampleAnswered)
    (newProcess CacheWriters.emptyCache) sampleStart := by
  refine (Program.each_cons rfl).mpr ⟨meets_call, ?_⟩
  refine (Program.each_cons rfl).mpr ⟨meets_call, ?_⟩
  refine (Program.each_cons rfl).mpr ⟨meets_of_task rfl fun _ => ⟨Or.inl rfl, ?_⟩, ?_⟩
  · exact List.forall_mem_singleton.mpr rfl
  refine (Program.each_cons rfl).mpr ⟨meets_of_task rfl (samplePage_answered _ _), ?_⟩
  refine (Program.each_cons rfl).mpr ⟨meets_of_task rfl fun _ => ⟨Or.inl rfl, trivial⟩, ?_⟩
  refine (Program.each_cons rfl).mpr ⟨meets_call, ?_⟩
  refine (Program.each_cons rfl).mpr ⟨meets_of_task rfl fun _ => ⟨Or.inr rfl, ?_⟩, ?_⟩
  · exact List.forall_mem_singleton.mpr rfl
  exact (Program.each_cons rfl).mpr
    ⟨meets_of_task rfl fun _ => ⟨Or.inr rfl, trivial⟩, trivial⟩

theorem sampleStart_served : ∃ w, sampleProgram.run (newProcess CacheWriters.emptyCache)
        sampleStart = some w ∧
    w.shared.own (.wallpapers none) = .data [sampleDecoded sampleLater] ∧
    (w.shared.own (.feed false)).1.wallpapers.length = 2 ∧
    (∀ category ws, w.shared.own (.wallpapers category) = .data ws → ∀ x ∈ ws,
      Known (ServedWallpaper sampleDoubles sampleZone String.toLower {sampleEpoch, sampleLater}
        sampleDocuments) x) ∧
    (∀ cats, w.shared.own .categories = .data cats → ∀ cat ∈ cats,
      ServedCategory sampleDoubles sampleZone String.toLower sampleCategories cat) ∧
    ∀ trending, ∀ x ∈ (w.shared.own (.feed trending)).1.wallpapers,
      OfPhoto sampleZone samplePhotos x := by
  refine ⟨_, rfl, rfl, rfl, shown_were_served sampleDoubles sampleZone String.toLower
    {sampleEpoch, sampleLater} sampleDocuments sampleCategories samplePhotos
    (fun w hw => decoded_sample hw) (fun cat hcat => sampleCategories_ints hcat)
    samplePhotos_isJson CacheWriters.emptyCache ?_ _
    (lives_run sampleStart .start sampleStart_answered rfl)⟩
  refine ⟨fun b hb => ?_, fun b hb => ?_, fun trending b hb => ?_⟩
  · exact Option.some.inj hb ▸ holds_empty
  · exact Option.some.inj hb ▸ holds_empty
  · cases trending <;> exact Option.some.inj hb ▸ holds_empty

end Served

end PixsBliss.Providers.SharedCache
